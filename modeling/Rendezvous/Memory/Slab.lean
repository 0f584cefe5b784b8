/-!
# Rendezvous.Memory.Slab

**A slab of records.** Records live in numbered slots, named by `Handle`s, and a
doubly linked list through the slots keeps them in the order of insertion.
Inserting reuses the slot freed last before the slab grows; both inserting and
removing take constant time. A handle carries no generation: once its record is
removed, it names whatever record the slot holds next.

`toList` is the view that everything else is stated through: the live records,
oldest first. It follows the links and stops after as many steps as there are
slots, which a list without a cycle never exceeds.
-/

namespace Rendezvous

/-- The name of a record in a slab: its slot number. -/
structure Handle where
  index : Nat
deriving DecidableEq, Repr, Inhabited

/-- A slot: the record it holds, if it is live, and its neighbours in the list
of live slots. -/
structure Slot (α : Type) where
  value : Option α
  prev : Option Nat
  next : Option Nat
deriving Repr

/-- Records in slots, with the list of live slots and the stack of free ones. -/
structure Slab (α : Type) where
  slots : Array (Slot α)
  /-- Slots without a record, the one freed last first. -/
  free : List Nat
  /-- The oldest live slot. -/
  first : Option Nat
  /-- The newest live slot. -/
  last : Option Nat
  /-- How many slots are live. -/
  size : Nat
deriving Repr

namespace Slab

variable {α : Type}

/-- The slab without slots. -/
def empty : Slab α := ⟨#[], [], none, none, 0⟩

instance : Inhabited (Slab α) := ⟨empty⟩

/-! ### Reading -/

/-- The record that a handle names. -/
def get? (slab : Slab α) (handle : Handle) : Option α :=
  match slab.slots[handle.index]? with
  | some slot => slot.value
  | none => none

/-- Does a handle name a record? -/
def contains (slab : Slab α) (handle : Handle) : Bool :=
  (slab.get? handle).isSome

/-- The handle of the record in a given slot. -/
def occupant (slab : Slab α) (index : Nat) : Option Handle :=
  if slab.contains ⟨index⟩ then some ⟨index⟩ else none

/-- Are there no records? -/
def isEmpty (slab : Slab α) : Bool := slab.size == 0

/-- How many slots there are, live or free. -/
def capacity (slab : Slab α) : Nat := slab.slots.size

/-- How many slots wait to be reused. -/
def freeCount (slab : Slab α) : Nat := slab.free.length

/-- The records from a slot on, following at most `steps` links. -/
def walk (slots : Array (Slot α)) : (steps : Nat) → Option Nat → List (Handle × α)
  | steps + 1, some index =>
    match slots[index]? with
    | some ⟨some value, _, next⟩ => (⟨index⟩, value) :: walk slots steps next
    | _ => []
  | _, _ => []

/-- The live records with their handles, oldest first. -/
def toList (slab : Slab α) : List (Handle × α) :=
  walk slab.slots slab.slots.size slab.first

/-- The handles of the live records, oldest first. -/
def keys (slab : Slab α) : List Handle :=
  slab.toList.map (·.1)

/-! ### Changing -/

/-- Makes a slot the successor of another, or the first of the list. -/
def linkAfter (slots : Array (Slot α)) (prev : Option Nat) (next : Option Nat) :
    Array (Slot α) :=
  match prev with
  | some index => slots.modify index fun slot => { slot with next := next }
  | none => slots

/-- Makes a slot the predecessor of another, or the last of the list. -/
def linkBefore (slots : Array (Slot α)) (next : Option Nat) (prev : Option Nat) :
    Array (Slot α) :=
  match next with
  | some index => slots.modify index fun slot => { slot with prev := prev }
  | none => slots

/-- Stores a record as the newest one. -/
def insert (slab : Slab α) (value : α) : Handle × Slab α :=
  let ⟨slots, free, first, last, size⟩ := slab
  let slot : Slot α := ⟨some value, last, none⟩
  match free with
  | index :: free =>
    let slots := linkAfter (slots.setIfInBounds index slot) last (some index)
    (⟨index⟩, ⟨slots, free, first.or (some index), some index, size + 1⟩)
  | [] =>
    let index := slots.size
    let slots := linkAfter (slots.push slot) last (some index)
    (⟨index⟩, ⟨slots, [], first.or (some index), some index, size + 1⟩)

/-- Takes a record out; its slot is the next to be reused. A handle without a
record changes nothing. -/
def remove (slab : Slab α) (handle : Handle) : Option α × Slab α :=
  match slab.slots[handle.index]? with
  | some ⟨some value, prev, next⟩ =>
    let ⟨slots, free, first, last, size⟩ := slab
    let slots := slots.setIfInBounds handle.index ⟨none, none, none⟩
    let slots := linkBefore (linkAfter slots prev next) next prev
    let first := if prev.isSome then first else next
    let last := if next.isSome then last else prev
    (some value, ⟨slots, handle.index :: free, first, last, size - 1⟩)
  | _ => (none, slab)

/-- Changes a record in place. A handle without a record changes nothing. -/
def modify (slab : Slab α) (handle : Handle) (f : α → α) : Slab α :=
  { slab with
    slots := slab.slots.modify handle.index fun slot => { slot with value := slot.value.map f } }

end Slab

end Rendezvous
