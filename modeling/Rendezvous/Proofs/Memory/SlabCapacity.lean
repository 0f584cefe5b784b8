import Rendezvous.Proofs.Memory.SlabOrder
import Mathlib.Data.List.Induction
import Mathlib.Order.Bounds.Basic

/-!
# Rendezvous.Proofs.Memory.SlabCapacity

**A slab grows only when it is full.** Every slot is live or waits to be reused
(`size_add_freeCount`), and a new slot is made only when none waits. So inserting
raises the number of slots just as far as the live ones need it (`capacity_insert`),
and nothing else changes it. A number that is raised like this is the largest that was
ever needed (`isGreatest_of_raised`).
-/

namespace Rendezvous

/-- What every step raises to a level, if it is less, is the highest level there was. -/
theorem isGreatest_of_raised {σ : Type} (level raised : List σ → Nat)
    (hnil : raised [] = level [])
    (hstep : ∀ steps step, raised (steps ++ [step]) = max (raised steps) (level (steps ++ [step])))
    (steps : List σ) :
    IsGreatest {n | ∃ earlier, earlier <+: steps ∧ level earlier = n} (raised steps) := by
  induction steps using List.reverseRecOn with
  | nil =>
      refine ⟨⟨[], List.prefix_rfl, hnil.symm⟩, ?_⟩
      rintro n ⟨earlier, hearlier, rfl⟩
      rw [List.prefix_nil.1 hearlier, hnil]
  | append_singleton steps step ih =>
      obtain ⟨⟨highest, hhighest, hlevel⟩, hbound⟩ := ih
      rw [hstep]
      constructor
      · rcases Nat.le_total (level (steps ++ [step])) (raised steps) with hle | hle
        · rw [Nat.max_eq_left hle]
          exact ⟨highest, hhighest.trans (List.prefix_append ..), hlevel⟩
        · rw [Nat.max_eq_right hle]
          exact ⟨steps ++ [step], List.prefix_rfl, rfl⟩
      · rintro n ⟨earlier, hearlier, rfl⟩
        rcases List.prefix_concat_iff.1 hearlier with rfl | hearlier
        · exact Nat.le_max_right ..
        · exact Nat.le_trans (hbound ⟨earlier, hearlier, rfl⟩) (Nat.le_max_left ..)

namespace Slab

variable {α : Type} {slab : Slab α} {order : List Nat} {handle : Handle} {value : α}

@[simp] theorem size_insert (slab : Slab α) (value : α) :
    (slab.insert value).2.size = slab.size + 1 := by
  obtain ⟨slots, free, first, last, size⟩ := slab
  cases free <;> rfl

theorem size_remove (hget : slab.get? handle = some value) :
    (slab.remove handle).2.size = slab.size - 1 := by
  rw [get?_eq_bind] at hget
  obtain ⟨⟨_, prev, next⟩, hslot, rfl⟩ := Option.bind_eq_some_iff.1 hget
  simp only [remove, hslot]

/-- A new slot is made when none waits to be reused. -/
theorem capacity_insert_eq (slab : Slab α) (value : α) :
    (slab.insert value).2.capacity = slab.capacity + if slab.free = [] then 1 else 0 := by
  obtain ⟨slots, free, first, last, size⟩ := slab
  cases free <;> simp [insert, capacity]

@[simp] theorem capacity_remove (slab : Slab α) (handle : Handle) :
    (slab.remove handle).2.capacity = slab.capacity := by
  unfold remove
  split
  · simp [capacity]
  · rfl

@[simp] theorem capacity_modify (slab : Slab α) (handle : Handle) (f : α → α) :
    (slab.modify handle f).capacity = slab.capacity := by
  simp [modify, capacity]

/-- The live slots and the free ones are all the slots, each of them once. -/
theorem Threaded.perm_range (h : Threaded slab order) :
    (order ++ slab.free).Perm (List.range slab.slots.size) := by
  have hapart : ∀ i ∈ order, ∀ j ∈ slab.free, i ≠ j := by
    rintro i hi j hj rfl
    obtain ⟨value, hvalue⟩ := h.exists_value hi
    rw [((h.mem_free i).1 hj).2] at hvalue
    cases hvalue
  refine (List.perm_ext_iff_of_nodup (List.nodup_append.2 ⟨h.nodup, h.free_nodup, hapart⟩)
    List.nodup_range).2 fun i => ?_
  rw [List.mem_append, List.mem_range]
  constructor
  · rintro (hi | hi)
    · exact h.lt_size hi
    · exact ((h.mem_free i).1 hi).1
  · intro hlt
    cases hvalue : slab.get? ⟨i⟩ with
    | none => exact .inr ((h.mem_free i).2 ⟨hlt, hvalue⟩)
    | some value => exact .inl (h.live i value hvalue)

namespace WellFormed

theorem length_keys (h : slab.WellFormed) : slab.keys.length = slab.size := by
  obtain ⟨order, h⟩ := h
  rw [h.keys_eq, List.length_map, h.size_eq]

theorem size_add_freeCount (h : slab.WellFormed) : slab.size + slab.freeCount = slab.capacity := by
  obtain ⟨order, h⟩ := h
  have hlength := h.perm_range.length_eq
  rwa [List.length_append, List.length_range, ← h.size_eq] at hlength

theorem size_le_capacity (h : slab.WellFormed) : slab.size ≤ slab.capacity :=
  h.size_add_freeCount ▸ Nat.le_add_right ..

/-- A slab gets a new slot only when all it has are live. -/
theorem capacity_insert (h : slab.WellFormed) (value : α) :
    (slab.insert value).2.capacity = max slab.capacity (slab.insert value).2.size := by
  have hsize := h.size_add_freeCount
  rw [size_insert, capacity_insert_eq, ← hsize, freeCount]
  split
  next hfree => simp [hfree]
  next hfree =>
    have hfree := List.length_pos_iff.2 hfree
    omega

end WellFormed

end Slab
end Rendezvous
