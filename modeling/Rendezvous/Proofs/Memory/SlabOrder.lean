import Rendezvous.Memory.Slab
import Mathlib.Data.List.Perm.Subperm

/-!
# Rendezvous.Proofs.Memory.SlabOrder

**A slab is a list of records in the order of insertion.** `Threaded` ties the
links of a slab to a list of slot numbers: each slot of the list is live and points
to its neighbours in the list, the slots that are not in it are free, and the ends
and the size are those of the list. Every operation keeps a slab threaded
(`Threaded.insert`, `Threaded.remove`, `Threaded.modify`).

Nothing else about links is needed outside this module. A slab is `WellFormed`
when it is threaded by some list, and for such slabs

* `mem_toList` and `nodup_keys`: the view `toList` holds each live record once;
* `get?_insert`, `get?_remove`, `get?_modify`: what each operation does to look-ups;
* `toList_insert`, `toList_remove`, `toList_modify`: what it does to the view, and
  `keys_insert`, `keys_remove`, `keys_modify`: to the handles in it.
-/

namespace Rendezvous
namespace Slab

variable {α : Type} {slab : Slab α} {order : List Nat}

/-! ### Look-ups in slots -/

theorem get?_eq_bind (slab : Slab α) (handle : Handle) :
    slab.get? handle = slab.slots[handle.index]?.bind Slot.value := by
  unfold get?
  split <;> simp_all

theorem getElem?_linkAfter (slots : Array (Slot α)) (prev next : Option Nat) (i : Nat) :
    (linkAfter slots prev next)[i]? =
      if prev = some i then slots[i]?.map fun slot => { slot with next := next }
      else slots[i]? := by
  cases prev with
  | none => simp [linkAfter]
  | some p =>
      by_cases h : p = i
      · simp [linkAfter, Array.getElem?_modify, h]
      · simp [linkAfter, Array.getElem?_modify, h]

theorem getElem?_linkBefore (slots : Array (Slot α)) (next prev : Option Nat) (i : Nat) :
    (linkBefore slots next prev)[i]? =
      if next = some i then slots[i]?.map fun slot => { slot with prev := prev }
      else slots[i]? := by
  cases next with
  | none => simp [linkBefore]
  | some n =>
      by_cases h : n = i
      · simp [linkBefore, Array.getElem?_modify, h]
      · simp [linkBefore, Array.getElem?_modify, h]

@[simp] theorem size_linkAfter (slots : Array (Slot α)) (prev next : Option Nat) :
    (linkAfter slots prev next).size = slots.size := by
  cases prev <;> simp [linkAfter]

@[simp] theorem size_linkBefore (slots : Array (Slot α)) (next prev : Option Nat) :
    (linkBefore slots next prev).size = slots.size := by
  cases next <;> simp [linkBefore]

/-- Links do not touch values. -/
theorem value_linkAfter (slots : Array (Slot α)) (prev next : Option Nat) (i : Nat) :
    (linkAfter slots prev next)[i]?.bind Slot.value = slots[i]?.bind Slot.value := by
  rw [getElem?_linkAfter]
  split
  · cases slots[i]? <;> rfl
  · rfl

/-! ### Threads -/

/-- A list of slot numbers runs through a slab: it is the list that the links of
the slab describe. -/
structure Threaded (slab : Slab α) (order : List Nat) : Prop where
  /-- A slot of the list is live and points to its neighbours. -/
  link : ∀ xs i ys, order = xs ++ i :: ys →
    ∃ value, slab.slots[i]? = some ⟨some value, xs.getLast?, ys.head?⟩
  nodup : order.Nodup
  /-- Every live slot is in the list. -/
  live : ∀ i value, slab.get? ⟨i⟩ = some value → i ∈ order
  free_nodup : slab.free.Nodup
  mem_free : ∀ i, i ∈ slab.free ↔ i < slab.slots.size ∧ slab.get? ⟨i⟩ = none
  first_eq : slab.first = order.head?
  last_eq : slab.last = order.getLast?
  size_eq : slab.size = order.length

/-- A slab through which some list runs. -/
def WellFormed (slab : Slab α) : Prop := ∃ order, Threaded slab order

theorem threaded_empty : Threaded (empty : Slab α) [] where
  link xs i ys h := by simp at h
  nodup := List.nodup_nil
  live i value h := by simp [get?, empty] at h
  free_nodup := List.nodup_nil
  mem_free i := by simp [empty]
  first_eq := rfl
  last_eq := rfl
  size_eq := rfl

theorem wellFormed_empty : (empty : Slab α).WellFormed := ⟨[], threaded_empty⟩

namespace Threaded

theorem exists_value (h : Threaded slab order) {i : Nat} (hi : i ∈ order) :
    ∃ value, slab.get? ⟨i⟩ = some value := by
  obtain ⟨xs, ys, rfl⟩ := List.append_of_mem hi
  obtain ⟨value, hvalue⟩ := h.link xs i ys rfl
  exact ⟨value, by simp [get?_eq_bind, hvalue]⟩

theorem lt_size (h : Threaded slab order) {i : Nat} (hi : i ∈ order) : i < slab.slots.size := by
  obtain ⟨xs, ys, rfl⟩ := List.append_of_mem hi
  obtain ⟨value, hvalue⟩ := h.link xs i ys rfl
  exact (Array.getElem?_eq_some_iff.1 hvalue).1

/-- The list is no longer than there are slots, so walking it never runs out of
steps. -/
theorem length_le (h : Threaded slab order) : order.length ≤ slab.slots.size := by
  have hsub : order ⊆ List.range slab.slots.size := fun i hi =>
    List.mem_range.2 (h.lt_size hi)
  simpa using (List.subperm_of_subset h.nodup hsub).length_le

/-- Walking from a place in the list visits the rest of it. -/
theorem walk_eq (h : Threaded slab order) (xs : List Nat) {ys : List Nat}
    (horder : order = xs ++ ys) {steps : Nat} (hsteps : ys.length ≤ steps) :
    walk slab.slots steps ys.head? =
      ys.filterMap fun i => (slab.get? ⟨i⟩).map fun value => (⟨i⟩, value) := by
  induction ys generalizing xs steps with
  | nil => cases steps <;> simp [walk]
  | cons i ys ih =>
      obtain ⟨steps, rfl⟩ : ∃ n, steps = n + 1 := ⟨steps - 1, by simp at hsteps; omega⟩
      obtain ⟨value, hvalue⟩ := h.link xs i ys horder
      have hget : slab.get? ⟨i⟩ = some value := by simp [get?_eq_bind, hvalue]
      have hrest := ih (xs ++ [i]) (by simp [horder]) (by simpa using hsteps)
      simp [walk, hvalue, hget, hrest]

theorem toList_eq (h : Threaded slab order) :
    slab.toList = order.filterMap fun i => (slab.get? ⟨i⟩).map fun value => (⟨i⟩, value) := by
  rw [toList, h.first_eq]
  exact h.walk_eq [] rfl h.length_le

theorem keys_eq (h : Threaded slab order) : slab.keys = order.map Handle.mk := by
  rw [keys, h.toList_eq, List.map_filterMap]
  have hall : ∀ i ∈ order, (slab.get? ⟨i⟩).map (fun _ => Handle.mk i) = some ⟨i⟩ := by
    intro i hi
    obtain ⟨value, hvalue⟩ := h.exists_value hi
    simp [hvalue]
  rw [← List.filterMap_eq_map]
  exact List.filterMap_congr (by simpa using hall)

end Threaded

/-! ### Inserting -/

/-- What inserting does: the record goes behind the last one, into the slot freed
last or, if there is none, into a new one. -/
theorem insert_eq (h : Threaded slab order) (value : α) :
    ∃ slots, (∀ i, slots[i]? =
        if i = (slab.insert value).1.index then some ⟨some value, slab.last, none⟩
        else slab.slots[i]?) ∧
      (slab.insert value).2 =
        ⟨linkAfter slots slab.last (some (slab.insert value).1.index), slab.free.tail,
          slab.first.or (some (slab.insert value).1.index),
          some (slab.insert value).1.index, slab.size + 1⟩ ∧
      slab.get? (slab.insert value).1 = none ∧
      (slab.free = [] ∧ (slab.insert value).1.index = slab.slots.size ∨
        ∃ free, slab.free = (slab.insert value).1.index :: free) := by
  obtain ⟨slots, free, first, last, size⟩ := slab
  cases free with
  | nil =>
      refine ⟨slots.push ⟨some value, last, none⟩, fun i => ?_, rfl, ?_, Or.inl ⟨rfl, rfl⟩⟩
      · simp [insert, Array.getElem?_push]
      · simp [insert, get?_eq_bind]
  | cons n free =>
      have hn := (h.mem_free n).1 (by simp)
      refine ⟨slots.setIfInBounds n ⟨some value, last, none⟩, fun i => ?_, rfl, hn.2,
        Or.inr ⟨free, rfl⟩⟩
      simp only [insert, Array.getElem?_setIfInBounds, eq_comm (a := i)]
      split
      · next hi => simp [hn.1]
      · rfl

theorem Threaded.get?_insert (h : Threaded slab order) (value : α) (handle : Handle) :
    (slab.insert value).2.get? handle =
      if handle = (slab.insert value).1 then some value else slab.get? handle := by
  obtain ⟨slots, hslots, heq, -, -⟩ := insert_eq h value
  have hindex : handle = (slab.insert value).1 ↔ handle.index = (slab.insert value).1.index := by
    cases handle
    cases (slab.insert value).1
    simp
  rw [get?_eq_bind, get?_eq_bind, heq]
  simp only [value_linkAfter, hslots, hindex]
  split <;> rfl

/-- A place in a list with one more element at its end is that element or a place
in the list. -/
theorem append_singleton_split {xs ys : List Nat} {i n : Nat}
    (h : order ++ [n] = xs ++ i :: ys) :
    (xs = order ∧ i = n ∧ ys = []) ∨ ∃ ys', order = xs ++ i :: ys' ∧ ys = ys' ++ [n] := by
  rcases List.eq_nil_or_concat ys with rfl | ⟨ys', m, rfl⟩
  · obtain ⟨rfl, hn⟩ := List.append_inj' h rfl
    exact Or.inl ⟨rfl, by simpa using hn.symm, rfl⟩
  · rw [List.concat_eq_append, ← List.cons_append, ← List.append_assoc] at h
    obtain ⟨rfl, hn⟩ := List.append_inj' h rfl
    exact Or.inr ⟨ys', rfl, by simpa using hn.symm⟩

/-- An element with others behind it is not the last of a list without
repetitions. -/
theorem getLast?_ne_of_nodup {xs ys : List Nat} {i j : Nat} (h : (xs ++ i :: j :: ys).Nodup) :
    (xs ++ i :: j :: ys).getLast? ≠ some i := by
  intro hlast
  have hmem : i ∈ j :: ys := by
    rw [List.getLast?_append_of_ne_nil _ (by simp), List.getLast?_cons_cons] at hlast
    exact List.mem_of_getLast? hlast
  rw [List.nodup_append] at h
  exact (List.nodup_cons.1 h.2.1).1 hmem

/-- A record is inserted into a slot that no record lives in. -/
theorem Threaded.notMem_of_insert (h : Threaded slab order) (value : α) :
    (slab.insert value).1.index ∉ order := by
  obtain ⟨-, -, -, hnone, -⟩ := insert_eq h value
  intro hmem
  obtain ⟨v, hv⟩ := h.exists_value hmem
  rw [hnone] at hv
  cases hv

/-- A list is threaded as before, and goes on with the slot that was filled. -/
theorem Threaded.link_insert (h : Threaded slab order) (value : α) {xs ys : List Nat} {i : Nat}
    (hsplit : order ++ [(slab.insert value).1.index] = xs ++ i :: ys) :
    ∃ v, (slab.insert value).2.slots[i]? = some ⟨some v, xs.getLast?, ys.head?⟩ := by
  have hfresh := h.notMem_of_insert value
  obtain ⟨slots, hslots, heq, -, -⟩ := insert_eq h value
  rw [heq]
  simp only [getElem?_linkAfter, hslots, h.last_eq]
  generalize (slab.insert value).1.index = n at hsplit hfresh
  rcases append_singleton_split hsplit with ⟨rfl, rfl, rfl⟩ | ⟨ys', rfl, rfl⟩
  · -- The slot that was filled: it points back to the one that was last.
    have hlast : xs.getLast? ≠ some i := fun hi => hfresh (List.mem_of_getLast? hi)
    exact ⟨value, by simp [hlast]⟩
  · -- An old slot: only the one that was last has a new successor.
    obtain ⟨v, hv⟩ := h.link xs i ys' rfl
    have hi : i ≠ n := fun hi => hfresh (by simp [hi])
    cases hys : ys' with
    | nil => exact ⟨v, by simp [hi, hv, hys]⟩
    | cons j ys'' =>
        subst hys
        have hlast := getLast?_ne_of_nodup h.nodup
        exact ⟨v, by rw [if_neg hlast, if_neg hi, hv]; simp⟩

/-- A slot is free after inserting if it was and has not been filled. -/
theorem Threaded.mem_free_insert (h : Threaded slab order) (value : α) (i : Nat) :
    i ∈ (slab.insert value).2.free ↔
      i < (slab.insert value).2.slots.size ∧ (slab.insert value).2.get? ⟨i⟩ = none := by
  have hold := h.mem_free i
  rw [h.get?_insert]
  obtain ⟨slots, hslots, heq, -, hplace⟩ := insert_eq h value
  rw [heq]
  generalize (slab.insert value).1 = handle at *
  obtain ⟨n⟩ := handle
  simp only at hslots hplace ⊢
  have hsize : i < slots.size ↔ i = n ∨ i < slab.slots.size := by
    rw [← Nat.not_le, ← Nat.not_le, ← Array.getElem?_eq_none_iff, ← Array.getElem?_eq_none_iff,
      hslots]
    by_cases hi : i = n <;> simp [hi]
  simp only [size_linkAfter, hsize, Handle.mk.injEq]
  rcases hplace with ⟨hfree, hn⟩ | ⟨free, hfree⟩
  · rw [hfree] at hold ⊢
    by_cases hi : i = n
    · simp [hi]
    · simpa [hi] using hold
  · have hnodup := h.free_nodup
    rw [hfree] at hold hnodup ⊢
    by_cases hi : i = n
    · simpa [hi] using (List.nodup_cons.1 hnodup).1
    · simpa [hi] using hold

theorem Threaded.insert (h : Threaded slab order) (value : α) :
    Threaded (slab.insert value).2 (order ++ [(slab.insert value).1.index]) := by
  have hget := h.get?_insert value
  have hfresh := h.notMem_of_insert value
  obtain ⟨slots, hslots, heq, -, -⟩ := insert_eq h value
  refine ⟨fun _ _ _ => h.link_insert value, ?_, ?_, ?_, h.mem_free_insert value, ?_, ?_, ?_⟩
  · rw [List.nodup_append]
    refine ⟨h.nodup, List.pairwise_singleton .., fun a ha b hb hab => hfresh ?_⟩
    rwa [← List.mem_singleton.1 hb, ← hab]
  · intro i v hv
    rw [hget] at hv
    split at hv
    next hi => exact List.mem_append_right _ (by simp [← hi])
    next => exact List.mem_append_left _ (h.live i v hv)
  · rw [heq]
    exact h.free_nodup.tail
  · simp only [heq, h.first_eq, List.head?_append, List.head?_cons]
  · simp [heq]
  · simp [heq, h.size_eq]

/-! ### Removing -/

theorem remove_of_get?_eq_none {handle : Handle} (h : slab.get? handle = none) :
    slab.remove handle = (none, slab) := by
  rw [get?_eq_bind] at h
  unfold remove
  split
  · next heq => simp [heq] at h
  · rfl

/-- What removing a live record does to its slab. -/
theorem remove_eq {xs ys : List Nat} {i : Nat} (h : Threaded slab (xs ++ i :: ys)) :
    ∃ value, slab.get? ⟨i⟩ = some value ∧
      slab.remove ⟨i⟩ =
        (some value,
          ⟨linkBefore
              (linkAfter (slab.slots.setIfInBounds i ⟨none, none, none⟩) xs.getLast? ys.head?)
              ys.head? xs.getLast?,
            i :: slab.free, (xs ++ ys).head?, (xs ++ ys).getLast?, slab.size - 1⟩) := by
  obtain ⟨value, hvalue⟩ := h.link xs i ys rfl
  have hfirst := h.first_eq
  have hlast := h.last_eq
  refine ⟨value, by simp [get?_eq_bind, hvalue], ?_⟩
  have hfirst' : (if xs.getLast?.isSome then slab.first else ys.head?) = (xs ++ ys).head? := by
    cases xs <;> simp_all
  have hlast' : (if ys.head?.isSome then slab.last else xs.getLast?) = (xs ++ ys).getLast? := by
    cases ys <;> simp_all [List.getLast?_append]
  unfold remove
  simp only [hvalue, ← hfirst', ← hlast']

/-- What removing a live record does to the slots. -/
theorem remove_getElem? {xs ys : List Nat} {i : Nat} (h : Threaded slab (xs ++ i :: ys)) (j : Nat) :
    (slab.remove ⟨i⟩).2.slots[j]? =
      if j = i then some ⟨none, none, none⟩
      else slab.slots[j]?.map fun slot =>
        ⟨slot.value, if ys.head? = some j then xs.getLast? else slot.prev,
          if xs.getLast? = some j then ys.head? else slot.next⟩ := by
  obtain ⟨value, -, hremove⟩ := remove_eq h
  have hi := h.lt_size (i := i) (by simp)
  have hnodup := h.nodup
  rw [List.nodup_append] at hnodup
  have hprev : xs.getLast? ≠ some i := fun hx =>
    hnodup.2.2 i (List.mem_of_getLast? hx) i (by simp) rfl
  have hnext : ys.head? ≠ some i := fun hy =>
    (List.nodup_cons.1 hnodup.2.1).1 (List.mem_of_head? hy)
  rw [hremove]
  simp only [getElem?_linkBefore, getElem?_linkAfter, Array.getElem?_setIfInBounds]
  by_cases hj : j = i
  · subst hj
    simp [hprev, hnext, hi]
  · simp only [Ne.symm hj, hj, if_false]
    cases slab.slots[j]? with
    | none => simp
    | some slot =>
        by_cases hp : xs.getLast? = some j <;> by_cases hn : ys.head? = some j <;> simp [hp, hn]

/-- A place in two lists put together is in one of them. -/
theorem append_split {xs ys zs ws : List Nat} {j : Nat} (h : xs ++ ys = zs ++ j :: ws) :
    (∃ cs, zs = xs ++ cs ∧ ys = cs ++ j :: ws) ∨ (∃ cs, xs = zs ++ j :: cs ∧ ws = cs ++ ys) := by
  rcases List.append_eq_append_iff.1 h with ⟨cs, rfl, rfl⟩ | ⟨cs, rfl, hcs⟩
  · exact Or.inl ⟨cs, rfl, rfl⟩
  · cases cs with
    | nil => exact Or.inl ⟨[], by simp, by simpa using hcs.symm⟩
    | cons c cs =>
        rw [List.cons_append, List.cons.injEq] at hcs
        obtain ⟨rfl, rfl⟩ := hcs
        exact Or.inr ⟨cs, rfl, rfl⟩

theorem Threaded.get?_remove (h : Threaded slab order) (handle other : Handle) :
    (slab.remove handle).2.get? other = if other = handle then none else slab.get? other := by
  cases hget : slab.get? handle with
  | none =>
      rw [remove_of_get?_eq_none hget]
      split
      · next heq => rw [heq, hget]
      · rfl
  | some value =>
      obtain ⟨i⟩ := handle
      obtain ⟨j⟩ := other
      obtain ⟨xs, ys, rfl⟩ := List.append_of_mem (h.live i value hget)
      rw [get?_eq_bind, remove_getElem? h, get?_eq_bind]
      simp only [Handle.mk.injEq]
      split
      · rfl
      · cases slab.slots[j]? <;> rfl

/-- The rest of a list is threaded as before around the slot that was removed. -/
theorem Threaded.link_remove {xs ys : List Nat} {i : Nat} (h : Threaded slab (xs ++ i :: ys))
    {zs ws : List Nat} {j : Nat} (hsplit : xs ++ ys = zs ++ j :: ws) :
    ∃ value, (slab.remove ⟨i⟩).2.slots[j]? = some ⟨some value, zs.getLast?, ws.head?⟩ := by
  have hnodup : xs.Nodup ∧ (i ∉ ys ∧ ys.Nodup) ∧ ∀ a ∈ xs, ∀ b ∈ i :: ys, a ≠ b := by
    simpa only [List.nodup_append, List.nodup_cons] using h.nodup
  rw [remove_getElem? h]
  rcases append_split hsplit with ⟨cs, rfl, rfl⟩ | ⟨cs, rfl, rfl⟩
  · -- The slot is behind the removed one: at most its predecessor changes.
    obtain ⟨v, hv⟩ := h.link (xs ++ i :: cs) j ws (by simp)
    have hj : j ≠ i := fun hj => hnodup.2.1.1 (by simp [hj])
    have hprev : xs.getLast? ≠ some j := fun hx =>
      hnodup.2.2 j (List.mem_of_getLast? hx) j (by simp) rfl
    refine ⟨v, ?_⟩
    cases cs with
    | nil => simp [hv, hj, hprev]
    | cons c cs =>
        have hc : c ≠ j := fun hc => by simp [hc] at hnodup
        simp [hv, hj, hprev, hc, List.getLast?_append]
  · -- The slot is before the removed one: at most its successor changes.
    obtain ⟨v, hv⟩ := h.link zs j (cs ++ i :: ys) (by simp)
    have hj : j ≠ i := fun hj => hnodup.2.2 j (by simp) i (by simp) hj
    have hnext : ys.head? ≠ some j := fun hy =>
      hnodup.2.2 j (by simp) j (List.mem_cons_of_mem _ (List.mem_of_head? hy)) rfl
    refine ⟨v, ?_⟩
    cases cs with
    | nil => simp [hv, hj, hnext]
    | cons c cs =>
        have hlast := getLast?_ne_of_nodup hnodup.1
        rw [if_neg hj, hv, Option.map_some, if_neg hnext, if_neg hlast]
        simp

theorem Threaded.remove {xs ys : List Nat} {i : Nat} (h : Threaded slab (xs ++ i :: ys)) :
    Threaded (slab.remove ⟨i⟩).2 (xs ++ ys) := by
  have hget := h.get?_remove ⟨i⟩
  obtain ⟨value, hvalue, heq⟩ := remove_eq h
  refine ⟨fun _ _ _ => h.link_remove, ?_, ?_, ?_, ?_, ?_, ?_, ?_⟩
  · exact h.nodup.sublist (List.Sublist.append_left (List.sublist_cons_self ..) _)
  · intro j v hv
    rw [hget] at hv
    split at hv
    · exact absurd hv (by simp)
    · next hj =>
      have hmem := h.live j v hv
      have hj' : j ≠ i := fun hji => hj (by rw [hji])
      simpa [hj'] using hmem
  · rw [heq]
    refine List.nodup_cons.2 ⟨fun hi => ?_, h.free_nodup⟩
    simp [((h.mem_free i).1 hi).2] at hvalue
  · intro j
    have hold := h.mem_free j
    have hi := h.lt_size (i := i) (by simp)
    rw [hget, heq]
    simp only [List.mem_cons, size_linkBefore, size_linkAfter, Array.size_setIfInBounds,
      Handle.mk.injEq]
    by_cases hj : j = i
    · simp [hj, hi]
    · simpa [hj] using hold
  · rw [heq]
  · rw [heq]
  · simp only [heq, h.size_eq]
    simp

/-! ### Changing in place -/

@[simp] theorem get?_modify (slab : Slab α) (handle other : Handle) (f : α → α) :
    (slab.modify handle f).get? other =
      if other = handle then (slab.get? other).map f else slab.get? other := by
  obtain ⟨i⟩ := handle
  obtain ⟨j⟩ := other
  simp only [get?_eq_bind, modify, Array.getElem?_modify, Handle.mk.injEq, eq_comm (a := j)]
  split
  · cases slab.slots[j]? <;> rfl
  · rfl

theorem Threaded.modify (h : Threaded slab order) (handle : Handle) (f : α → α) :
    Threaded (slab.modify handle f) order where
  link xs i ys horder := by
    obtain ⟨value, hvalue⟩ := h.link xs i ys horder
    by_cases hi : handle.index = i
    · exact ⟨f value, by simp [Slab.modify, Array.getElem?_modify, hi, hvalue]⟩
    · exact ⟨value, by simp [Slab.modify, Array.getElem?_modify, hi, hvalue]⟩
  nodup := h.nodup
  live i value hvalue := by
    rw [get?_modify] at hvalue
    split at hvalue
    · obtain ⟨old, hold, -⟩ := Option.map_eq_some_iff.1 hvalue
      exact h.live i old hold
    · exact h.live i value hvalue
  free_nodup := h.free_nodup
  mem_free i := by
    rw [get?_modify]
    split
    · simpa [Slab.modify] using h.mem_free i
    · simpa [Slab.modify] using h.mem_free i
  first_eq := h.first_eq
  last_eq := h.last_eq
  size_eq := h.size_eq

/-! ### Well-formed slabs -/

/-- Removing answers the record that was there. -/
@[simp] theorem fst_remove (slab : Slab α) (handle : Handle) :
    (slab.remove handle).1 = slab.get? handle := by
  rw [get?_eq_bind]
  unfold remove
  split
  · next heq => simp [heq]
  · next hno =>
    cases hslot : slab.slots[handle.index]? with
    | none => rfl
    | some slot =>
        obtain ⟨_ | value, prev, next⟩ := slot
        · rfl
        · exact absurd hslot (hno value prev next)

namespace WellFormed

variable {handle : Handle} {value : α}

theorem insert (h : slab.WellFormed) (value : α) : (slab.insert value).2.WellFormed := by
  obtain ⟨order, h⟩ := h
  exact ⟨_, h.insert value⟩

theorem remove (h : slab.WellFormed) (handle : Handle) : (slab.remove handle).2.WellFormed := by
  obtain ⟨order, h⟩ := h
  cases hget : slab.get? handle with
  | none =>
      rw [remove_of_get?_eq_none hget]
      exact ⟨order, h⟩
  | some value =>
      obtain ⟨xs, ys, rfl⟩ := List.append_of_mem (h.live handle.index value hget)
      exact ⟨xs ++ ys, h.remove⟩

theorem modify (h : slab.WellFormed) (handle : Handle) (f : α → α) :
    (slab.modify handle f).WellFormed := by
  obtain ⟨order, h⟩ := h
  exact ⟨order, h.modify handle f⟩

/-- A record goes into a slot that was not live. -/
theorem get?_fst_insert (h : slab.WellFormed) (value : α) :
    slab.get? (slab.insert value).1 = none := by
  obtain ⟨order, h⟩ := h
  obtain ⟨-, -, -, hnone, -⟩ := insert_eq h value
  exact hnone

theorem get?_insert (h : slab.WellFormed) (value : α) (other : Handle) :
    (slab.insert value).2.get? other =
      if other = (slab.insert value).1 then some value else slab.get? other := by
  obtain ⟨order, h⟩ := h
  exact h.get?_insert value other

theorem get?_remove (h : slab.WellFormed) (handle other : Handle) :
    (slab.remove handle).2.get? other = if other = handle then none else slab.get? other := by
  obtain ⟨order, h⟩ := h
  exact h.get?_remove handle other

theorem mem_toList (h : slab.WellFormed) :
    (handle, value) ∈ slab.toList ↔ slab.get? handle = some value := by
  obtain ⟨order, h⟩ := h
  obtain ⟨i⟩ := handle
  rw [h.toList_eq, List.mem_filterMap]
  constructor
  · rintro ⟨j, -, hj⟩
    obtain ⟨v, hv, heq⟩ := Option.map_eq_some_iff.1 hj
    simp only [Prod.mk.injEq, Handle.mk.injEq] at heq
    rw [← heq.1, ← heq.2, hv]
  · intro hget
    exact ⟨i, h.live i value hget, by simp [hget]⟩

theorem mem_keys (h : slab.WellFormed) :
    handle ∈ slab.keys ↔ ∃ value, slab.get? handle = some value := by
  simp only [keys, List.mem_map, Prod.exists, h.mem_toList]
  constructor
  · rintro ⟨other, value, hget, rfl⟩
    exact ⟨value, hget⟩
  · rintro ⟨value, hget⟩
    exact ⟨handle, value, hget, rfl⟩

theorem nodup_keys (h : slab.WellFormed) : slab.keys.Nodup := by
  obtain ⟨order, h⟩ := h
  rw [h.keys_eq]
  rw [List.Nodup, List.pairwise_map]
  exact h.nodup.imp fun hij heq => hij (Handle.mk.inj heq)

/-- Live records have slots of their own, so there are no more than slots. -/
theorem length_le_capacity (h : slab.WellFormed) {handles : List Handle} (hnodup : handles.Nodup)
    (hlive : ∀ handle ∈ handles, ∃ value, slab.get? handle = some value) :
    handles.length ≤ slab.capacity := by
  have hkeys : handles ⊆ slab.keys := fun handle hmem => h.mem_keys.2 (hlive handle hmem)
  obtain ⟨order, h⟩ := h
  calc handles.length ≤ slab.keys.length := (List.subperm_of_subset hnodup hkeys).length_le
    _ = order.length := by rw [h.keys_eq, List.length_map]
    _ ≤ slab.capacity := h.length_le

theorem toList_insert (h : slab.WellFormed) (value : α) :
    (slab.insert value).2.toList = slab.toList ++ [((slab.insert value).1, value)] := by
  obtain ⟨order, h⟩ := h
  have hfresh : ∀ i ∈ order, (⟨i⟩ : Handle) ≠ (slab.insert value).1 := by
    intro i hi heq
    have hfresh := h.notMem_of_insert value
    rw [← heq] at hfresh
    exact hfresh hi
  rw [(h.insert value).toList_eq, h.toList_eq, List.filterMap_append]
  congr 1
  · refine List.filterMap_congr ?_
    intro i hi
    rw [h.get?_insert, if_neg (hfresh i hi)]
  · simp [h.get?_insert]

theorem toList_remove (h : slab.WellFormed) (handle : Handle) :
    (slab.remove handle).2.toList = slab.toList.filter fun entry => entry.1 ≠ handle := by
  obtain ⟨order, h⟩ := h
  obtain ⟨i⟩ := handle
  cases hget : slab.get? ⟨i⟩ with
  | none =>
      rw [remove_of_get?_eq_none hget, eq_comm, List.filter_eq_self]
      rintro ⟨j, v⟩ hmem
      rw [WellFormed.mem_toList ⟨order, h⟩] at hmem
      refine decide_eq_true ?_
      intro heq
      simp only at heq
      simp [heq, hget] at hmem
  | some value =>
      obtain ⟨xs, ys, rfl⟩ := List.append_of_mem (h.live i value hget)
      have hne : ∀ j ∈ xs ++ ys, j ≠ i := by
        have hnodup := h.nodup
        simp only [List.nodup_append, List.nodup_cons, List.mem_cons] at hnodup
        rintro j hj rfl
        rcases List.mem_append.1 hj with hj | hj
        · exact hnodup.2.2 j hj j (Or.inl rfl) rfl
        · exact hnodup.2.1.1 hj
      -- The other slots keep their records, so filtering passes over them one by one.
      have hkeep : ∀ zs : List Nat, (∀ j ∈ zs, j ≠ i) →
          (zs.filterMap fun j => ((slab.remove ⟨i⟩).2.get? ⟨j⟩).map fun v => (Handle.mk j, v)) =
            (zs.filterMap fun j => (slab.get? ⟨j⟩).map fun v => (Handle.mk j, v)).filter
              fun entry => entry.1 ≠ ⟨i⟩ := by
        intro zs hzs
        rw [List.filter_filterMap]
        refine List.filterMap_congr ?_
        intro j hj
        have hji : (⟨j⟩ : Handle) ≠ ⟨i⟩ := fun heq => hzs j hj (Handle.mk.inj heq)
        rw [h.get?_remove, if_neg hji]
        cases slab.get? ⟨j⟩ <;> simp [Option.filter, hzs j hj]
      rw [h.remove.toList_eq, h.toList_eq, hkeep _ hne]
      simp [hget]

theorem toList_modify (h : slab.WellFormed) (handle : Handle) (f : α → α) :
    (slab.modify handle f).toList =
      slab.toList.map fun entry =>
        if entry.1 = handle then (entry.1, f entry.2) else entry := by
  obtain ⟨order, h⟩ := h
  rw [(h.modify handle f).toList_eq, h.toList_eq, List.map_filterMap]
  refine List.filterMap_congr ?_
  intro i _
  rw [get?_modify]
  split <;> cases slab.get? ⟨i⟩ <;> simp_all

theorem keys_insert (h : slab.WellFormed) (value : α) :
    (slab.insert value).2.keys = slab.keys ++ [(slab.insert value).1] := by
  simp [keys, h.toList_insert]

theorem keys_remove (h : slab.WellFormed) (handle : Handle) :
    (slab.remove handle).2.keys = slab.keys.filter fun other => other ≠ handle := by
  simp [keys, h.toList_remove, List.filter_map, Function.comp_def]

theorem keys_modify (h : slab.WellFormed) (handle : Handle) (f : α → α) :
    (slab.modify handle f).keys = slab.keys := by
  rw [keys, h.toList_modify, List.map_map]
  refine List.map_congr_left fun entry _ => ?_
  simp only [Function.comp_apply]
  split <;> rfl

end WellFormed

end Slab
end Rendezvous
