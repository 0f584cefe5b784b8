import Rendezvous.Wire.Bytes
import Mathlib.Algebra.GroupWithZero.Nat

/-!
# Rendezvous.Proofs.Wire.Words

**Words and the bytes that write them.** As numbers, the words read back by
`word16` and `word32` are the base-256 numbers that their bytes spell
(`toNat_word16`, `toNat_word32`), so reading what `bytes16` and `bytes32` wrote
gives the word back, and writing a word that was read gives back its bytes.
-/

namespace Rendezvous

/-- Two numbers side by side in the digits of a word. -/
theorem shiftLeft_or_of_lt (high : Nat) {low width : Nat} (h : low < 2 ^ width) :
    high <<< width ||| low = high * 2 ^ width + low := by
  rw [← Nat.shiftLeft_add_eq_or_of_lt h, Nat.shiftLeft_eq]

theorem toNat_word16 (a b : UInt8) : (word16 a b).toNat = a.toNat * 256 + b.toNat := by
  have ha := a.toNat_lt
  have hb := b.toNat_lt
  have hshift : a.toNat <<< 8 % 65536 = a.toNat <<< 8 := by
    rw [Nat.shiftLeft_eq]
    omega
  simp only [word16, UInt16.toNat_or, UInt16.toNat_shiftLeft, UInt8.toNat_toUInt16,
    UInt16.reduceToNat, Nat.reduceMod, Nat.reducePow, hshift]
  exact shiftLeft_or_of_lt _ (by simpa using hb)

theorem toNat_word32 (a b c d : UInt8) :
    (word32 a b c d).toNat =
      ((a.toNat * 256 + b.toNat) * 256 + c.toNat) * 256 + d.toNat := by
  have ha := a.toNat_lt
  have hb := b.toNat_lt
  have hc := c.toNat_lt
  have hd := d.toNat_lt
  have hshift : ∀ (x : UInt8) (k : Nat), k ≤ 24 →
      x.toNat <<< k % 4294967296 = x.toNat <<< k := by
    intro x k hk
    rw [Nat.shiftLeft_eq]
    apply Nat.mod_eq_of_lt
    have hx := x.toNat_lt
    have hpow : 2 ^ k ≤ 2 ^ 24 := Nat.pow_le_pow_right (by decide) hk
    calc x.toNat * 2 ^ k ≤ 255 * 2 ^ 24 := Nat.mul_le_mul (by omega) hpow
      _ < 4294967296 := by decide
  simp only [word32, UInt32.toNat_or, UInt32.toNat_shiftLeft, UInt8.toNat_toUInt32,
    UInt32.reduceToNat, Nat.reduceMod, Nat.reducePow, hshift _ 24 (by decide),
    hshift _ 16 (by decide), hshift _ 8 (by decide)]
  -- The three shifts are joined from the lowest digit up.
  rw [Nat.or_assoc, Nat.or_assoc, shiftLeft_or_of_lt c.toNat (by simpa using hd),
    shiftLeft_or_of_lt b.toNat (by omega),
    shiftLeft_or_of_lt a.toNat (by omega)]
  omega

/-- A 16-bit word is read back from its bytes. -/
theorem word16_bytes16 (n : UInt16) : word16 (n >>> 8).toUInt8 n.toUInt8 = n := by
  apply UInt16.toNat_inj.1
  have hn := n.toNat_lt
  rw [toNat_word16]
  simp [Nat.shiftRight_eq_div_pow]
  omega

/-- A 32-bit word is read back from its bytes. -/
theorem word32_bytes32 (n : UInt32) :
    word32 (n >>> 24).toUInt8 (n >>> 16).toUInt8 (n >>> 8).toUInt8 n.toUInt8 = n := by
  apply UInt32.toNat_inj.1
  have hn := n.toNat_lt
  rw [toNat_word32]
  simp [Nat.shiftRight_eq_div_pow]
  omega

theorem peekWord_bytes32 (n : UInt32) (rest : Bytes) :
    peekWord (bytes32 n ++ rest) = some n := by
  rw [bytes32, List.cons_append, List.cons_append, List.cons_append, List.cons_append,
    peekWord_cons, word32_bytes32]

/-- The bytes of a 16-bit word are the bytes that it was read from. -/
theorem bytes16_word16 (a b : UInt8) : bytes16 (word16 a b) = [a, b] := by
  have ha := a.toNat_lt
  have hb := b.toNat_lt
  -- Each byte is one digit of the number that the word stands for.
  simp only [bytes16, List.cons.injEq, and_true, ← UInt8.toNat_inj]
  constructor
  · simp [toNat_word16, Nat.shiftRight_eq_div_pow]
    omega
  · simp [toNat_word16]

/-- The bytes of a 32-bit word are the bytes that it was read from. -/
theorem bytes32_word32 (a b c d : UInt8) : bytes32 (word32 a b c d) = [a, b, c, d] := by
  have ha := a.toNat_lt
  have hb := b.toNat_lt
  have hc := c.toNat_lt
  have hd := d.toNat_lt
  simp only [bytes32, List.cons.injEq, and_true, ← UInt8.toNat_inj]
  refine ⟨?_, ?_, ?_, ?_⟩ <;> simp [toNat_word32, Nat.shiftRight_eq_div_pow] <;> omega

end Rendezvous
