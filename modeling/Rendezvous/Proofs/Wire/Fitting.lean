import Rendezvous.Proofs.Wire.Refusal

/-!
# Rendezvous.Proofs.Wire.Fitting

**A writer writes what fits, and the total says whether that is all of it.** A put for which
there is no room is skipped, and a shorter one behind it may be written all the same. So what
stands in the buffer is not what the first puts stand for, but what those stand for that had
room when it was their turn.

* `BoundedWriter.Tried` is all that can come of one put, said on the buffer as a whole, and
  `tried_put` says so of every writer. What a run comes to is read off it.
* `BoundedWriter.Filled` says what a run leaves behind when some puts have been written, one
  behind the other; it composes (`Filled.trans`), and `filled_putAll` is the induction.
* `refused_putAll_iff` tells by the total alone whether a put will be refused.
* `writes_what_fits` puts them together.
-/

namespace Rendezvous

namespace Put

/-- Bytes that say what a put says: as many as its word is wide, spelling the word most
significant first, or the bytes that were given. -/
def Says : Put → Bytes → Prop
  | u8 value, bytes => bytes.length = 1 ∧ spelled bytes = value.toNat
  | u16 value, bytes => bytes.length = 2 ∧ spelled bytes = value.toNat
  | u32 value, bytes => bytes.length = 4 ∧ spelled bytes = value.toNat
  | raw given, bytes => bytes = given

theorem says_bytes (p : Put) : p.Says p.bytes := by
  cases p with
  | u8 value => exact ⟨rfl, Nat.zero_add _⟩
  | u16 value =>
      have hword := toNat_word16 (value >>> 8).toUInt8 value.toUInt8
      rw [word16_bytes16] at hword
      refine ⟨rfl, ?_⟩
      show (0 * 256 + (value >>> 8).toUInt8.toNat) * 256 + value.toUInt8.toNat = value.toNat
      omega
  | u32 value =>
      have hword := toNat_word32_eq_spelled (value >>> 24).toUInt8 (value >>> 16).toUInt8
        (value >>> 8).toUInt8 value.toUInt8
      rw [word32_bytes32] at hword
      exact ⟨rfl, hword.symm⟩
  | raw given => rfl

end Put

namespace BoundedWriter

variable {w v u : BoundedWriter} {p : Put} {puts kept more : List Put}

/-! ### One put -/

/-- Is there room for a put where the writer stands? -/
def Fits (w : BoundedWriter) (p : Put) : Prop := w.count + p.bytes.length ≤ w.buffer.length

instance (w : BoundedWriter) (p : Put) : Decidable (w.Fits p) := Nat.decLe _ _

/-- What comes of a put. With room for all of its bytes they are written where the writer
stands, and every other byte is as it was; otherwise none of them is, and the writer remembers
that. -/
inductive Tried (w : BoundedWriter) (p : Put) (v : BoundedWriter) : Prop where
  | whole (room : w.Fits p) (count : v.count = w.count + p.bytes.length)
    (buffer : v.buffer =
      w.buffer.take w.count ++ p.bytes ++ w.buffer.drop (w.count + p.bytes.length))
    (refused : v.refused = w.refused)
  | skipped (room : ¬ w.Fits p) (count : v.count = w.count) (buffer : v.buffer = w.buffer)
    (refused : v.refused = true)

theorem length_buffer (w : BoundedWriter) :
    w.buffer.length = w.count + w.untouched.length := by
  simp [buffer, count]

theorem count_le_length (w : BoundedWriter) : w.count ≤ w.buffer.length := by
  rw [length_buffer]
  exact Nat.le_add_right ..

theorem take_buffer (w : BoundedWriter) : w.buffer.take w.count = w.written.toList :=
  List.take_left' Array.length_toList

theorem drop_buffer (w : BoundedWriter) (n : Nat) :
    w.buffer.drop (w.count + n) = w.untouched.drop n := by
  rw [← List.drop_drop]
  exact congrArg (List.drop n) (List.drop_left' Array.length_toList)

theorem fits_iff : w.Fits p ↔ p.bytes.length ≤ w.untouched.length := by
  rw [Fits, length_buffer]
  exact Nat.add_le_add_iff_left

theorem tried_put (w : BoundedWriter) (p : Put) : w.Tried p (w.put p) := by
  by_cases h : w.Fits p
  · rw [put_of_fits (fits_iff.1 h)]
    refine .whole h ?_ ?_ rfl
    · simp [count, ← Array.length_toList]
    · rw [take_buffer, drop_buffer]
      simp [buffer]
  · have hput : w.put p = { w with refused := true } := by
      simp [put, mt fits_iff.2 h]
    rw [hput]
    exact .skipped h rfl rfl rfl

/-! ### A run -/

/-- The puts of a run, each with the writer that it was tried on: the one to which all puts
before it had been made. -/
def attempts (w : BoundedWriter) (puts : List Put) : List (BoundedWriter × Put) :=
  puts.mapIdx fun i p => (w.putAll (puts.take i), p)

/-- The puts of a run that fitted where they were tried. -/
def fitting (w : BoundedWriter) (puts : List Put) : List Put :=
  ((w.attempts puts).filter fun (tried, p) => tried.Fits p).map Prod.snd

theorem putAll_concat (w : BoundedWriter) (puts : List Put) (p : Put) :
    w.putAll (puts ++ [p]) = (w.putAll puts).put p := by
  simp [putAll]

theorem attempts_cons (w : BoundedWriter) (p : Put) (puts : List Put) :
    w.attempts (p :: puts) = (w, p) :: (w.put p).attempts puts := by
  simp [attempts, List.mapIdx_cons, putAll]

theorem fitting_cons (w : BoundedWriter) (p : Put) (puts : List Put) :
    w.fitting (p :: puts) = (if w.Fits p then [p] else []) ++ (w.put p).fitting puts := by
  by_cases h : w.Fits p <;> simp [fitting, attempts_cons, h]

/-- Some puts, and no others, have been written one behind the other where the writer stood:
what stood before them and what stands behind them is as it was. -/
structure Filled (w : BoundedWriter) (kept : List Put) (v : BoundedWriter) : Prop where
  count : v.count = w.count + Put.total kept
  inside : v.count ≤ w.buffer.length
  length : v.buffer.length = w.buffer.length
  bytes : v.buffer.take v.count = w.buffer.take w.count ++ Put.allBytes kept
  untouched : v.buffer.drop v.count = w.buffer.drop v.count

theorem Filled.of_eq (hcount : v.count = w.count) (hbuffer : v.buffer = w.buffer) :
    Filled w [] v where
  count := hcount
  inside := hcount ▸ w.count_le_length
  length := by rw [hbuffer]
  bytes := by rw [hcount, hbuffer, Put.allBytes_nil, List.append_nil]
  untouched := by rw [hbuffer]

theorem Filled.trans (h : Filled w kept v) (h' : Filled v more u) :
    Filled w (kept ++ more) u where
  count := by rw [h'.count, h.count, Put.total_append, Nat.add_assoc]
  inside := h.length ▸ h'.inside
  length := h'.length.trans h.length
  bytes := by
    rw [h'.bytes, h.bytes, List.append_assoc]
    simp [Put.allBytes]
  untouched := by
    -- What the second part left alone lies behind what the first part wrote.
    rw [h'.untouched, h'.count, ← List.drop_drop, h.untouched, List.drop_drop]

theorem Tried.filled (h : w.Tried p v) : Filled w (if w.Fits p then [p] else []) v := by
  cases h with
  | whole room count buffer refused =>
      rw [if_pos room]
      have hroom : w.count + p.bytes.length ≤ w.buffer.length := room
      have hbefore : (w.buffer.take w.count ++ p.bytes).length = v.count := by
        rw [List.length_append, List.length_take_of_le (by omega), count]
      refine ⟨by simpa using count, count ▸ hroom, ?_, ?_, ?_⟩
      · rw [buffer, List.length_append, hbefore, List.length_drop, count]
        omega
      · rw [buffer, List.take_left' hbefore]
        simp
      · rw [buffer, List.drop_left' hbefore, count]
  | skipped room count buffer refused =>
      rw [if_neg room]
      exact .of_eq count buffer

theorem filled_putAll (w : BoundedWriter) (puts : List Put) :
    Filled w (w.fitting puts) (w.putAll puts) := by
  induction puts generalizing w with
  | nil => exact .of_eq rfl rfl
  | cons p puts ih =>
      rw [fitting_cons]
      exact (tried_put w p).filled.trans (ih (w.put p))

/-- A put is refused when all of them together are longer than what is left, and only then: as
long as none is, each has taken its full length. -/
theorem refused_putAll_iff (w : BoundedWriter) (puts : List Put) :
    (w.putAll puts).refused = true ↔
      w.refused = true ∨ w.buffer.length < w.count + Put.total puts := by
  induction puts generalizing w with
  | nil => exact (or_iff_left (Nat.not_lt.2 w.count_le_length)).symm
  | cons p puts ih =>
      show ((w.put p).putAll puts).refused = true ↔ _
      have hlength := (tried_put w p).filled.length
      rw [ih, hlength, Put.total_cons]
      cases tried_put w p with
      | whole room count buffer refused => rw [count, refused, Nat.add_assoc]
      | skipped room count buffer refused =>
          have hshort : w.buffer.length < w.count + p.bytes.length := Nat.not_le.1 room
          exact iff_of_true (.inl refused) (.inr (by omega))

/-- **A writer writes what fits.** It has refused a put exactly if the total is longer than
the buffer. If it has not, it stands where the total says, behind the bytes of all puts. In any
case it stands behind the bytes of those puts that fitted where they were tried, within the
buffer, and nothing from there on has changed; and whatever was tried before, a put is written
whole or not at all. The bytes of a word are the ones that spell it, most significant first. -/
theorem writes_what_fits (buffer : Bytes) (puts : List Put) :
    let start := ofBuffer buffer
    let w := start.putAll puts
    (w.refused = true ↔ buffer.length < Put.total puts) ∧
    (w.refused = false →
      w.count = Put.total puts ∧ w.buffer.take w.count = Put.allBytes puts) ∧
    w.buffer.take w.count = Put.allBytes (start.fitting puts) ∧
    (∀ before p, (start.putAll before).Tried p (start.putAll (before ++ [p]))) ∧
    w.count ≤ buffer.length ∧ w.buffer.length = buffer.length ∧
    w.buffer.drop w.count = buffer.drop w.count ∧
    ∀ p : Put, p.Says p.bytes := by
  intro start w
  have hcount : start.count = 0 := rfl
  have hrefused : w.refused = true ↔ buffer.length < Put.total puts := by
    rw [refused_putAll_iff, hcount, Nat.zero_add]
    exact or_iff_right Bool.false_ne_true
  have hfilled : Filled start (start.fitting puts) w := filled_putAll start puts
  refine ⟨hrefused, fun hnone => ?_, hfilled.bytes, fun before p => ?_, hfilled.inside,
    hfilled.length, hfilled.untouched, Put.says_bytes⟩
  · have hroom : Put.total puts ≤ buffer.length := by
      rw [← Nat.not_lt, ← hrefused, hnone]
      exact Bool.false_ne_true
    have hall : w = _ := putAll_of_fits (w := start) hroom
    rw [take_buffer, hall]
    simp [start, ofBuffer, count, Put.length_allBytes]
  · rw [putAll_concat]
    exact tried_put _ p

/-- Into four bytes a word of two is written, one of four is skipped, and a byte still fits;
into seven all three are written. -/
theorem writes_what_fits_behind_refusal :
    let puts : List Put := [.u16 0xabcd, .u32 0x01020304, .u8 0xff]
    let short := (ofBuffer (List.replicate 4 0xee)).putAll puts
    let long := (ofBuffer (List.replicate 7 0xee)).putAll puts
    short.refused = true ∧ short.buffer.take short.count = [0xab, 0xcd, 0xff] ∧
      short.buffer.drop short.count = [0xee] ∧
      long.refused = false ∧ long.count = 7 ∧
      long.buffer.take long.count = [0xab, 0xcd, 1, 2, 3, 4, 0xff] := by
  intro puts short long
  obtain ⟨hshort, -, hkept, -, -, -, hbehind, -⟩ :=
    writes_what_fits (List.replicate 4 0xee) puts
  obtain ⟨-, hwhole, -⟩ := writes_what_fits (List.replicate 7 0xee) puts
  have hnone : long.refused = false := rfl
  exact ⟨hshort.2 (by decide), hkept, hbehind, hnone, hwhole hnone⟩

end BoundedWriter
end Rendezvous
