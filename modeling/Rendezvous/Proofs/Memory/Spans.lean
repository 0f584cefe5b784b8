import Mathlib.Algebra.Group.Nat.Defs
import Rendezvous.Memory.Scratch

/-!
# Rendezvous.Proofs.Memory.Spans

**What handing out and writing leaves alone.** A range that scratch memory hands out starts
at a multiple of its alignment, at or above all that was handed out before, and ends within
the memory, which is grown behind its old bytes if it has to be (`reserve_spec`). A write
over a range changes no byte outside it (`getElem?_write_outside`).
-/

namespace Rendezvous
namespace Scratch

/-! ### Alignment -/

/-- Rounding up to a power of two: clearing the low bits is taking the remainder away. -/
theorem alignUp_two_pow (level k : Nat) :
    alignUp level (2 ^ k) = level + (2 ^ k - 1) - (level + (2 ^ k - 1)) % 2 ^ k := by
  have hpos : 1 ≤ 2 ^ k := Nat.one_le_two_pow
  simp only [alignUp, Nat.max_eq_left hpos, Nat.and_two_pow_sub_one_eq_mod]

theorem two_pow_dvd_alignUp (level k : Nat) : 2 ^ k ∣ alignUp level (2 ^ k) := by
  rw [alignUp_two_pow]
  exact Nat.dvd_sub_mod _

theorem le_alignUp (level k : Nat) : level ≤ alignUp level (2 ^ k) := by
  have hrest : (level + (2 ^ k - 1)) % 2 ^ k < 2 ^ k := Nat.mod_lt _ (Nat.two_pow_pos k)
  rw [alignUp_two_pow]
  omega

/-! ### Growing and writing -/

/-- Memory is grown until a range ends in it. -/
theorem le_length_growTo (cells : Bytes) (stop : Nat) : stop ≤ (growTo cells stop).length := by
  unfold growTo
  simp only
  split
  · simp only [List.length_append, List.length_replicate]
    omega
  · omega

/-- Memory grows behind its old bytes. -/
theorem prefix_growTo (cells : Bytes) (stop : Nat) : cells <+: growTo cells stop := by
  unfold growTo
  simp only
  split
  · exact List.prefix_append ..
  · exact List.prefix_rfl

theorem length_bytes {scratch : Scratch} {start size : Nat}
    (h : start + size ≤ scratch.cells.length) :
    (scratch.bytes ⟨start, start + size⟩).length = size := by
  simp only [bytes, List.length_take, List.length_drop]
  omega

/-- What has been written over a range is what the range holds. -/
theorem bytes_write {scratch : Scratch} {start : Nat} {bytes : Bytes}
    (h : start + bytes.length ≤ scratch.cells.length) :
    (scratch.write start bytes).bytes ⟨start, start + bytes.length⟩ = bytes := by
  have hstart : (scratch.cells.take start).length = start := List.length_take_of_le (by omega)
  simp only [Scratch.bytes, write, Nat.add_sub_cancel_left, List.append_assoc]
  rw [List.drop_left' hstart, List.take_left' rfl]

theorem length_write {scratch : Scratch} {offset : Nat} {bytes : Bytes}
    (h : offset + bytes.length ≤ scratch.capacity) :
    (scratch.write offset bytes).capacity = scratch.capacity := by
  unfold capacity at h ⊢
  simp only [write, List.length_append, List.length_take, List.length_drop]
  omega

/-- A byte outside the range that is written over keeps its value. -/
theorem getElem?_write_outside {scratch : Scratch} {offset : Nat} {bytes : Bytes} {i : Nat}
    (hroom : offset + bytes.length ≤ scratch.capacity)
    (hi : i < offset ∨ offset + bytes.length ≤ i) :
    (scratch.write offset bytes).cells[i]? = scratch.cells[i]? := by
  have hbefore : (scratch.cells.take offset).length = offset :=
    List.length_take_of_le (by unfold capacity at hroom; omega)
  show (scratch.cells.take offset ++ bytes ++ scratch.cells.drop (offset + bytes.length))[i]? = _
  rcases hi with hlow | hhigh
  · rw [List.append_assoc, List.getElem?_append_left (by omega), List.getElem?_take_of_lt hlow]
  · have hhead : (scratch.cells.take offset ++ bytes).length = offset + bytes.length := by
      rw [List.length_append, hbefore]
    rw [List.getElem?_append_right (by omega), hhead, List.getElem?_drop]
    congr 1
    omega

/-! ### Handing out -/

/-- A range has been handed out: aligned, above everything handed out before, within the
memory, and with all old bytes in their places. -/
structure HandedOut (before : Scratch) (size align : Nat) (span : Span) (after : Scratch) :
    Prop where
  aligned : align ∣ span.start
  fresh : before.level ≤ span.start
  size : span.stop = span.start + size
  level : after.level = span.stop
  inside : span.stop ≤ after.capacity
  kept : before.cells <+: after.cells

theorem handedOut_reserve (scratch : Scratch) (size k : Nat) :
    HandedOut scratch size (2 ^ k) (scratch.reserve size (2 ^ k)).1
      (scratch.reserve size (2 ^ k)).2 where
  aligned := two_pow_dvd_alignUp scratch.level k
  fresh := le_alignUp scratch.level k
  size := rfl
  level := rfl
  inside := le_length_growTo ..
  kept := prefix_growTo ..

end Scratch
end Rendezvous
