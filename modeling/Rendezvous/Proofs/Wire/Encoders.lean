import Rendezvous.Proofs.Wire.Canonical

/-!
# Rendezvous.Proofs.Wire.Encoders

**All ways to write a message write the same bytes, and no others.** A frame is written into
a buffer that is at hand, into one of its own, or into scratch memory. What the counting pass
counted is what the writing pass writes, so a writer is never short of room, and whatever
stood behind the frame, or in a buffer into which nothing was written, still stands there.

* `Message.writeRefusal` says which message is not written into how much room, in the order
  in which the reasons are looked at; `writeFrame_eq` says what a write comes to.
* `FrameWritten` and `FrameReserved` say what a write into a buffer and one into scratch
  memory leave behind; neither supposes anything of what was there before.
* `encoders_agree` puts them together.
-/

namespace Rendezvous
namespace Message

/-! ### What is refused -/

/-- How many entries a message lists. -/
def entryCount : Message → Nat
  | peersToConnect entries => entries.length
  | _ => 0

theorem countable_iff (msg : Message) : msg.countable = true ↔ msg.entryCount ≤ maxWord := by
  cases msg with
  | peersToConnect entries => exact decide_eq_true_iff
  | _ => exact iff_of_true rfl (Nat.zero_le _)

/-- Why a message is not written into a buffer with some room, if it is not: its entries
cannot be counted, or the buffer is too short, or the frame is too long for its length
field. -/
def writeRefusal (msg : Message) (room : Nat) : Option CodecError :=
  if maxWord < msg.entryCount then some (.frameTooLarge unboundedSize)
  else if room < msg.frameLength then some (.bufferTooSmall msg.frameLength room)
  else if maxWord < msg.frameLength then some (.frameTooLarge msg.frameLength)
  else none

theorem encodedLength_eq (msg : Message) :
    msg.encodedLength =
      if maxWord < msg.entryCount then .error (.frameTooLarge unboundedSize)
      else .ok msg.frameLength := by
  by_cases hmany : maxWord < msg.entryCount
  · have hcount : ¬ msg.countable = true := fun h =>
      absurd ((countable_iff msg).1 h) (Nat.not_le.2 hmany)
    rw [if_pos hmany, encodedLength, if_neg hcount]
  · rw [if_neg hmany]
    exact encodedLength_of_countable ((countable_iff msg).2 (Nat.not_lt.1 hmany))

/-- A message is written unless it is refused; then the buffer is as it was. -/
theorem writeFrame_eq (msg : Message) (buffer : Bytes) :
    msg.writeFrame buffer =
      match msg.writeRefusal buffer.length with
      | some e => (.error e, buffer)
      | none =>
        (.ok msg.frameLength, Put.allBytes (msg.puts (UInt32.ofNat msg.frameLength)) ++
          buffer.drop msg.frameLength) := by
  have hlength := msg.encodedLength_eq
  unfold writeRefusal
  by_cases hmany : maxWord < msg.entryCount
  · rw [if_pos hmany] at hlength ⊢
    simp only [writeFrame, hlength]
  · rw [if_neg hmany] at hlength ⊢
    by_cases hroom : buffer.length < msg.frameLength
    · simp only [writeFrame, hlength, if_pos hroom]
    · by_cases hlong : maxWord < msg.frameLength
      · simp only [writeFrame, hlength, if_neg hroom, if_pos hlong]
      · simp only [if_neg hroom, if_neg hlong]
        exact writeFrame_of_fits hlength (Nat.not_lt.1 hroom) (Nat.not_lt.1 hlong)

/-- What is not refused has a frame, and its length is counted. -/
theorem encode_of_writeRefusal {msg : Message} {room : Nat} (h : msg.writeRefusal room = none) :
    msg.frameLength ≤ room ∧ msg.encodedLength = .ok msg.frameLength ∧
      msg.encode = .ok (Put.allBytes (msg.puts (UInt32.ofNat msg.frameLength))) := by
  unfold writeRefusal at h
  split at h
  next => cases h
  next hfew =>
    split at h
    next => cases h
    next hroom =>
      split at h
      next => cases h
      next hfits =>
        have hcount := (countable_iff msg).2 (Nat.not_lt.1 hfew)
        refine ⟨Nat.not_lt.1 hroom, encodedLength_of_countable hcount, ?_⟩
        rw [encode_eq_ok_iff, total_puts_eq]
        exact ⟨hcount, Nat.not_lt.1 hfits, rfl⟩

/-! ### Into a buffer -/

/-- A frame of some length has been written at the start of a buffer: as many bytes as were
counted, none of which the writer had no room for, and nothing behind them. -/
structure FrameWritten (msg : Message) (before : Bytes) (length : Nat) (after : Bytes) : Prop where
  counted : msg.encodedLength = .ok length
  room : length ≤ before.length
  frame : msg.encode = .ok (after.take length)
  untouched : after.drop length = before.drop length
  passes :
    let writer := (BoundedWriter.ofBuffer (before.take length)).putAll
      (msg.puts (UInt32.ofNat length))
    writer.refused = false ∧ writer.count = length

theorem frameWritten_writeFrame {msg : Message} {buffer : Bytes} {length : Nat}
    (h : (msg.writeFrame buffer).1 = .ok length) :
    FrameWritten msg buffer length (msg.writeFrame buffer).2 := by
  have hwritten := msg.writeFrame_eq buffer
  cases hrefusal : msg.writeRefusal buffer.length with
  | some e =>
      rw [hwritten, hrefusal] at h
      cases h
  | none =>
      obtain ⟨hroom, hcounted, hencode⟩ := encode_of_writeRefusal hrefusal
      rw [hrefusal] at hwritten
      rw [hwritten] at h
      obtain rfl : msg.frameLength = length := Except.ok.inj h
      have hframe := length_of_encode hencode
      refine ⟨hcounted, hroom, ?_, ?_, ?_⟩
      · rw [hwritten, List.take_left' hframe]
        exact hencode
      · rw [hwritten, List.drop_left' hframe]
      · have htotal : Put.total (msg.puts (UInt32.ofNat msg.frameLength)) = msg.frameLength := by
          rw [total_puts, total_puts_eq]
        have hfits : Put.total (msg.puts (UInt32.ofNat msg.frameLength)) ≤
            (buffer.take msg.frameLength).length :=
          Nat.le_of_eq (htotal.trans (List.length_take_of_le hroom).symm)
        simp only
        rw [BoundedWriter.putAll_of_fits (w := .ofBuffer (buffer.take msg.frameLength)) hfits]
        refine ⟨rfl, ?_⟩
        simp [BoundedWriter.count, BoundedWriter.ofBuffer, hframe]

/-! ### Into scratch memory -/

/-- A frame has been made in scratch memory: in a fresh range at a multiple of eight, within
the memory, and no byte outside that range has changed. -/
structure FrameReserved (before : Scratch) (frame : Bytes) (start : Nat) (after : Scratch) :
    Prop where
  aligned : 8 ∣ start
  fresh : before.level ≤ start
  level : after.level = start + frame.length
  inside : after.level ≤ after.capacity
  holds : after.bytes ⟨start, start + frame.length⟩ = frame
  untouched : ∀ i, i < before.capacity → i < start ∨ start + frame.length ≤ i →
    after.cells[i]? = before.cells[i]?

/-- What is left of making a frame in scratch memory is the frame, written over a range that
was handed out for it. -/
theorem snd_encodeScratch {msg : Message} {frame : Bytes} (h : msg.encode = .ok frame)
    (scratch : Scratch) :
    (msg.encodeScratch scratch).2 =
      (scratch.reserve frame.length frameAlignment).2.write
        (scratch.reserve frame.length frameAlignment).1.start frame := by
  obtain ⟨hcountable, hword, hbytes⟩ := encode_eq_ok_iff.1 h
  rw [total_puts_eq] at hword hbytes
  have hcounted := encodedLength_of_countable hcountable
  rw [length_of_encode h]
  have hrange : ((scratch.reserve msg.frameLength frameAlignment).2.bytes
      (scratch.reserve msg.frameLength frameAlignment).1).length = msg.frameLength :=
    Scratch.length_bytes (Scratch.le_length_growTo ..)
  have hwritten := writeFrame_of_fits hcounted (Nat.le_of_eq hrange.symm) hword
  rw [hbytes, List.drop_of_length_le (Nat.le_of_eq hrange), List.append_nil] at hwritten
  simp only [encodeScratch, hcounted, hwritten]

theorem frameReserved_encodeScratch {msg : Message} {frame : Bytes} (h : msg.encode = .ok frame)
    (scratch : Scratch) :
    ∃ start, FrameReserved scratch frame start (msg.encodeScratch scratch).2 := by
  rw [snd_encodeScratch h scratch]
  -- Frames are aligned at a multiple of two to the third.
  have hspan : Scratch.HandedOut scratch frame.length 8
      (scratch.reserve frame.length frameAlignment).1
      (scratch.reserve frame.length frameAlignment).2 :=
    Scratch.handedOut_reserve scratch frame.length 3
  generalize scratch.reserve frame.length frameAlignment = reserved at hspan
  obtain ⟨⟨start, stop⟩, grown⟩ := reserved
  obtain ⟨haligned, hfresh, hsize, hlevel, hinside, hkept⟩ := hspan
  obtain rfl : stop = start + frame.length := hsize
  refine ⟨start, haligned, hfresh, hlevel, ?_, Scratch.bytes_write hinside, fun i hi hout => ?_⟩
  · rw [Scratch.length_write hinside]
    exact Nat.le_trans (Nat.le_of_eq hlevel) hinside
  · rw [Scratch.getElem?_write_outside hinside hout]
    obtain ⟨more, hmore⟩ := hkept
    show grown.cells[i]? = scratch.cells[i]?
    rw [← hmore, List.getElem?_append_left hi]

/-- **The encoders agree.** The counting pass counts what the frame measures. A message is
refused for the first reason there is, before anything is written, and otherwise written
whole at the start of the buffer, and nothing behind it. In scratch memory the same frame
is made whatever its state, in a fresh range, and nothing outside that range. -/
theorem encoders_agree (msg : Message) (buffer : Bytes) (scratch : Scratch) :
    (msg.encodedLength =
      if maxWord < msg.entryCount then .error (.frameTooLarge unboundedSize)
      else .ok msg.frameLength) ∧
    (∀ e, (msg.writeFrame buffer).1 = .error e ↔ msg.writeRefusal buffer.length = some e) ∧
    (∀ e, (msg.writeFrame buffer).1 = .error e → (msg.writeFrame buffer).2 = buffer) ∧
    (∀ length, (msg.writeFrame buffer).1 = .ok length →
      FrameWritten msg buffer length (msg.writeFrame buffer).2) ∧
    (msg.encodeScratch scratch).1 = msg.encode ∧
    ∀ frame, (msg.encodeScratch scratch).1 = .ok frame →
      ∃ start, FrameReserved scratch frame start (msg.encodeScratch scratch).2 := by
  have hwritten := msg.writeFrame_eq buffer
  refine ⟨msg.encodedLength_eq, fun e => ?_, fun e he => ?_, fun length => frameWritten_writeFrame,
    msg.fst_encodeScratch scratch, fun frame hframe => ?_⟩
  · rw [hwritten]
    cases msg.writeRefusal buffer.length <;> simp
  · rw [hwritten] at he ⊢
    cases hrefusal : msg.writeRefusal buffer.length with
    | some refusal => rfl
    | none =>
        rw [hrefusal] at he
        cases he
  · exact frameReserved_encodeScratch ((msg.fst_encodeScratch scratch).symm.trans hframe) scratch

/-- An answer of fifteen bytes: written into sixteen, refused for fourteen, and made in scratch
memory that must grow and of which three bytes are handed out. -/
theorem encoders_agree_stunResponse :
    FrameWritten (stunResponse ⟨⟨0xcb007105⟩, 40000⟩) (List.replicate 16 0xee) 15
      ((stunResponse ⟨⟨0xcb007105⟩, 40000⟩).writeFrame (List.replicate 16 0xee)).2 ∧
    ((stunResponse ⟨⟨0xcb007105⟩, 40000⟩).writeFrame (List.replicate 14 0xee)).2 =
      List.replicate 14 0xee ∧
    ∃ start, FrameReserved ⟨[1, 2, 3, 4], 3⟩
      [0x54, 0x45, 0x4e, 0x54, 0, 0, 0, 15, 2, 0xcb, 0x00, 0x71, 0x05, 0x9c, 0x40] start
      ((stunResponse ⟨⟨0xcb007105⟩, 40000⟩).encodeScratch ⟨[1, 2, 3, 4], 3⟩).2 := by
  obtain ⟨-, -, -, hwhole, -, hscratch⟩ := encoders_agree (stunResponse ⟨⟨0xcb007105⟩, 40000⟩)
    (List.replicate 16 0xee) ⟨[1, 2, 3, 4], 3⟩
  obtain ⟨-, -, hrefused, -, -, -⟩ := encoders_agree (stunResponse ⟨⟨0xcb007105⟩, 40000⟩)
    (List.replicate 14 0xee) ⟨[1, 2, 3, 4], 3⟩
  exact ⟨hwhole 15 rfl, hrefused (.bufferTooSmall 15 14) rfl, hscratch _ rfl⟩

end Message
end Rendezvous
