import Rendezvous.Proofs.Memory.SlabCapacity
import Mathlib.Data.List.Induction

/-!
# Rendezvous.Proofs.Memory.SlabHistory

**A slab lists its records in the order in which they came.** A `History` is a slab
together with what was done to it, as somebody would keep it who sees the operations and
their answers and nothing of slots and links: the records that came and have not left, and
the slots that were given up.

Whatever is done to a slab, the two agree (`agrees_after`, one lemma for each operation).
So following the links from the oldest record visits exactly the records of the history
and then ends (`Visits`), a new record goes into the slot that was given up last, and there
are as many slots as records were ever live together (`orderly`).
-/

namespace Rendezvous
namespace Slab

variable {α : Type} {slab : Slab α} {order : List Nat} {handle : Handle} {value : α}

/-! ### Operations and their record -/

/-- Something that is done to a slab. -/
inductive Change (α : Type) where
  | insert (value : α)
  | remove (handle : Handle)
  | modify (handle : Handle) (f : α → α)

/-- A slab with what an onlooker has seen of the operations on it. -/
structure History (α : Type) where
  slab : Slab α
  /-- The records that were inserted and not removed since, in the order of inserting. -/
  records : List (Handle × α)
  /-- The handles whose records were removed, the latest first. -/
  freed : List Handle

namespace History

/-- Nothing has been done. -/
def empty : History α := ⟨.empty, [], []⟩

/-- One more thing is done. -/
def record (h : History α) : Change α → History α
  | .insert value =>
    { slab := (h.slab.insert value).2
      records := h.records ++ [((h.slab.insert value).1, value)]
      freed := h.freed }
  | .remove handle =>
    { slab := (h.slab.remove handle).2
      records := h.records.filter fun entry => entry.1 ≠ handle
      freed := if (h.slab.remove handle).1.isSome then handle :: h.freed else h.freed }
  | .modify handle f =>
    { slab := h.slab.modify handle f
      records := h.records.map fun entry =>
        if entry.1 = handle then (entry.1, f entry.2) else entry
      freed := h.freed }

/-- The history of a list of operations on a slab without slots. -/
def after (changes : List (Change α)) : History α := changes.foldl record empty

@[simp] theorem after_concat (changes : List (Change α)) (change : Change α) :
    after (changes ++ [change]) = (after changes).record change := by
  simp [after]

end History

/-! ### Following the links -/

/-- Going from slot to slot along the links visits some records and ends, without ever
coming to a slot that has none. -/
inductive Visits (slots : Array (Slot α)) : Option Nat → List (Handle × α) → Prop where
  | done : Visits slots none []
  | step {index : Nat} {value : α} {prev next : Option Nat} {rest : List (Handle × α)}
    (here : slots[index]? = some ⟨some value, prev, next⟩) (more : Visits slots next rest) :
    Visits slots (some index) ((⟨index⟩, value) :: rest)

/-- From a place in the list of a threaded slab on, the rest of the list is visited. -/
theorem Threaded.visits_from (h : Threaded slab order) (xs : List Nat) {ys : List Nat}
    (horder : order = xs ++ ys) :
    Visits slab.slots ys.head?
      (ys.filterMap fun i => (slab.get? ⟨i⟩).map fun value => (⟨i⟩, value)) := by
  induction ys generalizing xs with
  | nil => exact .done
  | cons i ys ih =>
      obtain ⟨value, hvalue⟩ := h.link xs i ys horder
      have hget : slab.get? ⟨i⟩ = some value := by simp [get?_eq_bind, hvalue]
      have hrest := ih (xs ++ [i]) (by simp [horder])
      simp only [List.head?_cons, List.filterMap_cons, hget, Option.map_some]
      exact .step hvalue hrest

theorem WellFormed.visits (h : slab.WellFormed) : Visits slab.slots slab.first slab.toList := by
  obtain ⟨order, h⟩ := h
  rw [h.toList_eq, h.first_eq]
  exact h.visits_from [] rfl

/-! ### Free slots -/

theorem contains_eq_true_iff :
    slab.contains handle = true ↔ ∃ value, slab.get? handle = some value :=
  Option.isSome_iff_exists

/-- A record goes into the slot that was freed last, or into a new one. -/
theorem fst_insert (slab : Slab α) (value : α) :
    (slab.insert value).1 = ⟨slab.free.headD slab.capacity⟩ := by
  obtain ⟨slots, free, first, last, size⟩ := slab
  cases free <;> rfl

theorem free_insert (slab : Slab α) (value : α) : (slab.insert value).2.free = slab.free.tail := by
  obtain ⟨slots, free, first, last, size⟩ := slab
  cases free <;> rfl

theorem free_remove (hget : slab.get? handle = some value) :
    (slab.remove handle).2.free = handle.index :: slab.free := by
  rw [get?_eq_bind] at hget
  obtain ⟨⟨_, prev, next⟩, hslot, rfl⟩ := Option.bind_eq_some_iff.1 hget
  simp only [remove, hslot]

theorem WellFormed.contains_insert (h : slab.WellFormed) (value : α) (other : Handle) :
    (slab.insert value).2.contains other =
      (decide (other = (slab.insert value).1) || slab.contains other) := by
  unfold contains
  rw [h.get?_insert]
  split <;> simp_all

theorem WellFormed.contains_remove (h : slab.WellFormed) (handle other : Handle) :
    (slab.remove handle).2.contains other =
      (decide (other ≠ handle) && slab.contains other) := by
  unfold contains
  rw [h.get?_remove]
  split <;> simp_all

@[simp] theorem contains_modify (slab : Slab α) (handle other : Handle) (f : α → α) :
    (slab.modify handle f).contains other = slab.contains other := by
  unfold contains
  rw [get?_modify]
  split <;> simp

/-! ### A history tells the truth -/

namespace History

/-- The handles that were given up and name no record, the one given up last first. -/
def vacant (h : History α) : List Handle :=
  h.freed.filter fun handle => !h.slab.contains handle

/-- What the onlooker knows is what the slab holds. -/
structure Agrees (h : History α) : Prop where
  wellFormed : h.slab.WellFormed
  records : h.slab.toList = h.records
  /-- A handle may have been given up several times; what counts is the last one. -/
  free : h.slab.free.map Handle.mk = h.vacant.eraseDups

theorem agrees_empty : Agrees (empty : History α) where
  wellFormed := wellFormed_empty
  records := rfl
  free := rfl

/-- Without its first element, a list without repetitions is what is left when that element
is taken out everywhere. -/
theorem tail_eraseDups {first : Handle} {handles : List Handle} (h : handles.head? = some first) :
    handles.eraseDups.tail = (handles.filter fun other => other ≠ first).eraseDups := by
  obtain ⟨rest, rfl⟩ := List.head?_eq_some_iff.1 h
  rw [List.eraseDups_cons, List.tail_cons, List.filter_cons_of_neg (by simp)]
  congr 1
  refine List.filter_congr fun other _ => ?_
  by_cases hsame : other = first <;> simp [hsame]

theorem head?_eraseDups (handles : List Handle) : handles.eraseDups.head? = handles.head? := by
  cases handles <;> simp [List.eraseDups_cons]

namespace Agrees

variable {h : History α}

/-- The slot freed last is that of the handle given up last. -/
theorem head?_vacant (ha : Agrees h) : h.vacant.head? = h.slab.free.head?.map Handle.mk := by
  rw [← head?_eraseDups, ← ha.free, List.head?_map]

theorem insert (ha : Agrees h) (value : α) : Agrees (h.record (.insert value)) where
  wellFormed := ha.wellFormed.insert value
  records := by
    simp only [record]
    rw [ha.wellFormed.toList_insert, ha.records]
  free := by
    have hvacant : (h.record (.insert value)).vacant =
        h.vacant.filter fun other => other ≠ (h.slab.insert value).1 := by
      simp only [vacant, record, ha.wellFormed.contains_insert, List.filter_filter]
      refine List.filter_congr fun other _ => ?_
      simp
    have hfree := ha.free
    have hhead := ha.head?_vacant
    rw [hvacant]
    simp only [record]
    rw [free_insert, fst_insert]
    cases hfirst : h.slab.free with
    | nil =>
        rw [hfirst, List.head?_nil, Option.map_none, List.head?_eq_none_iff] at hhead
        rw [hhead]
        rfl
    | cons index rest =>
        rw [hfirst] at hhead hfree
        rw [List.headD_cons, ← tail_eraseDups hhead, ← hfree]
        rfl

theorem remove (ha : Agrees h) (handle : Handle) : Agrees (h.record (.remove handle)) where
  wellFormed := ha.wellFormed.remove handle
  records := by
    simp only [record]
    rw [ha.wellFormed.toList_remove, ha.records]
  free := by
    simp only [vacant, record, fst_remove]
    cases hget : h.slab.get? handle with
    | none =>
        rw [remove_of_get?_eq_none hget]
        exact ha.free
    | some value =>
        -- The handle is the first that is vacant now, and was not vacant before.
        have hlive : h.slab.contains handle = true := contains_eq_true_iff.2 ⟨value, hget⟩
        have hrest : ∀ other ∈ h.freed,
            (!other == handle && !(decide (other ≠ handle) && h.slab.contains other)) =
              !h.slab.contains other := by
          intro other _
          by_cases hsame : other = handle
          · simp [hsame, hlive]
          · simp [hsame]
        simp only [Option.isSome_some, if_true, ha.wellFormed.contains_remove, free_remove hget]
        rw [List.filter_cons_of_pos (by simp), List.eraseDups_cons, List.map_cons, ha.free]
        congr 2
        rw [vacant, List.filter_filter, List.filter_congr hrest]

theorem modify (ha : Agrees h) (handle : Handle) (f : α → α) :
    Agrees (h.record (.modify handle f)) where
  wellFormed := ha.wellFormed.modify handle f
  records := by
    simp only [record]
    rw [ha.wellFormed.toList_modify, ha.records]
  free := by
    simp only [vacant, record, contains_modify]
    exact ha.free

theorem record (ha : Agrees h) (change : Change α) : Agrees (h.record change) := by
  cases change with
  | insert value => exact ha.insert value
  | remove handle => exact ha.remove handle
  | modify handle f => exact ha.modify handle f

end Agrees

/-- After any operations the history agrees with the slab. -/
theorem agrees_after (changes : List (Change α)) : Agrees (after changes) := by
  induction changes using List.reverseRecOn with
  | nil => exact agrees_empty
  | append_singleton changes change ih =>
      rw [after_concat]
      exact ih.record change

/-! ### After any operations -/

/-- What is true of a slab and its records after some operations. -/
structure Orderly (changes : List (Change α)) : Prop where
  /-- Following the links from the oldest record on visits all records in order and ends. -/
  visits : Visits (after changes).slab.slots (after changes).slab.first (after changes).records
  toList : (after changes).slab.toList = (after changes).records
  once : ((after changes).records.map Prod.fst).Nodup
  get? : ∀ handle value, (after changes).slab.get? handle = some value ↔
    (handle, value) ∈ (after changes).records
  contains : ∀ handle, (after changes).slab.contains handle = true ↔
    handle ∈ (after changes).records.map Prod.fst
  occupant : ∀ index, (after changes).slab.occupant index =
    if ⟨index⟩ ∈ (after changes).records.map Prod.fst then some ⟨index⟩ else none
  size : (after changes).slab.size = (after changes).records.length
  free_nodup : (after changes).slab.free.Nodup
  /-- The free slots are those without a record. -/
  mem_free : ∀ index, index ∈ (after changes).slab.free ↔
    index < (after changes).slab.capacity ∧ (after changes).slab.get? ⟨index⟩ = none
  slots : (after changes).slab.capacity =
    (after changes).slab.size + (after changes).slab.freeCount
  /-- There are as many slots as records were ever live at the same time. -/
  capacity : IsGreatest {n | ∃ earlier, earlier <+: changes ∧ (after earlier).slab.size = n}
    (after changes).slab.capacity
  /-- As long as a slot is free, a record goes into the one that was given up last. -/
  reused : ∀ value, (after changes).vacant.head? =
    if (after changes).slab.freeCount = 0 then none
    else some ((after changes).slab.insert value).1
  /-- Without a record there is nothing to remove. -/
  absent : ∀ handle, (after changes).slab.get? handle = none →
    (after changes).slab.remove handle = (none, (after changes).slab)

namespace Agrees

variable {h : History α}

/-- The slab grows to what is live after an operation, if it is smaller. -/
theorem capacity_record (ha : Agrees h) (change : Change α) :
    (h.record change).slab.capacity = max h.slab.capacity (h.record change).slab.size := by
  have hfits := (ha.record change).wellFormed.size_le_capacity
  cases change with
  | insert value => exact ha.wellFormed.capacity_insert value
  | remove handle =>
      have hsame : (h.record (.remove handle)).slab.capacity = h.slab.capacity :=
        capacity_remove h.slab handle
      rw [hsame] at hfits ⊢
      exact (Nat.max_eq_left hfits).symm
  | modify handle f =>
      have hsame : (h.record (.modify handle f)).slab.capacity = h.slab.capacity :=
        capacity_modify h.slab handle f
      rw [hsame] at hfits ⊢
      exact (Nat.max_eq_left hfits).symm

theorem mem_records (ha : Agrees h) {handle : Handle} {value : α} :
    (handle, value) ∈ h.records ↔ h.slab.get? handle = some value := by
  rw [← ha.records]
  exact ha.wellFormed.mem_toList

theorem mem_handles (ha : Agrees h) {handle : Handle} :
    handle ∈ h.records.map Prod.fst ↔ h.slab.contains handle = true := by
  rw [← ha.records, contains_eq_true_iff]
  exact ha.wellFormed.mem_keys

theorem reused (ha : Agrees h) (value : α) :
    h.vacant.head? = if h.slab.freeCount = 0 then none else some (h.slab.insert value).1 := by
  rw [ha.head?_vacant, fst_insert, freeCount]
  cases h.slab.free <;> rfl

end Agrees

/-- After any operations, a slab is orderly. -/
theorem orderly (changes : List (Change α)) : Orderly changes := by
  have h := agrees_after changes
  have hwf := h.wellFormed
  have hfree : (after changes).slab.free.Nodup ∧
      ∀ index, index ∈ (after changes).slab.free ↔
        index < (after changes).slab.capacity ∧ (after changes).slab.get? ⟨index⟩ = none := by
    obtain ⟨order, hthreaded⟩ := hwf
    exact ⟨hthreaded.free_nodup, hthreaded.mem_free⟩
  refine ⟨?_, h.records, ?_, fun _ _ => h.mem_records.symm, fun _ => h.mem_handles.symm, ?_, ?_,
    hfree.1, hfree.2, hwf.size_add_freeCount.symm, ?_, h.reused,
    fun _ => remove_of_get?_eq_none⟩
  · rw [← h.records]
    exact hwf.visits
  · rw [← h.records]
    exact hwf.nodup_keys
  · intro index
    simp only [occupant, h.mem_handles]
  · rw [← hwf.length_keys, keys, h.records, List.length_map]
  · refine isGreatest_of_raised (fun changes => (after changes).slab.size)
      (fun changes => (after changes).slab.capacity) rfl (fun changes change => ?_) changes
    simp only [after_concat]
    exact (agrees_after changes).capacity_record change

/-- The slot that was given up is reused, and its new record comes last. -/
example : (after [.insert 1, .insert 2, .remove ⟨0⟩, .insert 3]).slab.toList =
    [(⟨1⟩, 2), (⟨0⟩, 3)] := by decide

end History
end Slab
end Rendezvous
