import Rendezvous.Proofs.Memory.Spans
import Rendezvous.Proofs.Wire.Words
import Rendezvous.Wire.Codec

/-!
# Rendezvous.Proofs.Wire.RoundTrip

**What is decoded is what was encoded.** A writer with room enough writes exactly the
bytes that its puts stand for, and a cursor that stands before the bytes of a field
reads that field and stops behind them. So a frame is decoded to the message that it
was made of.

* `encode_eq_ok_iff` says when a message has a frame, and which one; `fst_encodeScratch`
  says that scratch memory makes the same one.
* `payload_puts` reads the fields of any message back.
* `decode_encode` puts them together.
-/

namespace Rendezvous

/-! ### Writing -/

namespace BoundedWriter

theorem put_of_fits {w : BoundedWriter} {p : Put} (h : p.bytes.length ≤ w.untouched.length) :
    w.put p =
      { w with written := w.written ++ p.bytes, untouched := w.untouched.drop p.bytes.length } := by
  simp [put, h]

/-- With room enough, all puts are written in order, none is refused, and what is behind them
is left alone. -/
theorem putAll_of_fits {w : BoundedWriter} {puts : List Put}
    (h : Put.total puts ≤ w.untouched.length) :
    w.putAll puts =
      { w with
        written := w.written ++ Put.allBytes puts
        untouched := w.untouched.drop (Put.total puts) } := by
  induction puts generalizing w with
  | nil => simp [putAll]
  | cons p puts ih =>
      rw [Put.total_cons] at h
      have hrest : Put.total puts ≤ (w.untouched.drop p.bytes.length).length := by
        rw [List.length_drop]
        omega
      have hwritten : w.written ++ p.bytes ++ Put.allBytes puts =
          w.written ++ Put.allBytes (p :: puts) := by
        apply Array.ext'
        simp
      show (w.put p).putAll puts = _
      rw [put_of_fits (by omega), ih hrest, hwritten, List.drop_drop, Put.total_cons]

theorem buffer_putAll {w : BoundedWriter} {puts : List Put}
    (h : Put.total puts ≤ w.untouched.length) :
    (w.putAll puts).buffer =
      w.written.toList ++ Put.allBytes puts ++ w.untouched.drop (Put.total puts) := by
  rw [putAll_of_fits h]
  simp [buffer]

end BoundedWriter

namespace Message

/-- The length field takes as much room whatever it says. -/
theorem total_puts (msg : Message) (n : UInt32) :
    Put.total (msg.puts n) = Put.total (msg.puts 0) := by
  simp [puts, Put.bytes]

/-- A frame from its magic word to its fields. -/
theorem allBytes_puts (msg : Message) (n : UInt32) :
    Put.allBytes (msg.puts n) =
      bytes32 magic ++ (bytes32 n ++ (msg.kind.tag :: Put.allBytes msg.payloadPuts)) := by
  simp [puts, Put.bytes]

theorem encodedLength_eq_ok {msg : Message} {length : Nat} (h : msg.encodedLength = .ok length) :
    msg.countable = true ∧ Put.total (msg.puts 0) = length := by
  unfold encodedLength at h
  split at h
  · exact ⟨‹_›, Except.ok.inj h⟩
  · cases h

/-- A frame written at the start of a buffer that is long enough. -/
theorem writeFrame_of_fits {msg : Message} {length : Nat} {buffer : Bytes}
    (h : msg.encodedLength = .ok length) (hroom : length ≤ buffer.length)
    (hword : length ≤ maxWord) :
    msg.writeFrame buffer =
      (.ok length, Put.allBytes (msg.puts (UInt32.ofNat length)) ++ buffer.drop length) := by
  obtain ⟨-, htotal⟩ := encodedLength_eq_ok h
  have hfits : Put.total (msg.puts (UInt32.ofNat length)) = length := by rw [total_puts, htotal]
  unfold writeFrame
  simp only [h, Nat.not_lt.2 hroom, Nat.not_lt.2 hword, if_false]
  rw [BoundedWriter.buffer_putAll]
  · simp [BoundedWriter.ofBuffer, hfits]
  · simp [BoundedWriter.ofBuffer, hfits, hroom]

/-- A message has a frame unless its length does not fit a word, and the frame is what is
written for the message. -/
theorem encode_eq (msg : Message) :
    msg.encode =
      match msg.encodedLength with
      | .error e => .error e
      | .ok length =>
        if maxWord < length then .error (.frameTooLarge length)
        else .ok (Put.allBytes (msg.puts (UInt32.ofNat length))) := by
  unfold encode
  cases h : msg.encodedLength with
  | error e => rfl
  | ok length =>
      simp only [bind, Except.bind, pure, Except.pure]
      by_cases hword : length ≤ maxWord
      · rw [writeFrame_of_fits h (by simp) hword]
        simp [Nat.not_lt.2 hword]
      · have hlong : maxWord < length := Nat.not_le.1 hword
        simp [writeFrame, h, hlong]

/-- A message has a frame when its fields are counted and its length fits a word. -/
theorem encode_eq_ok_iff {msg : Message} {bytes : Bytes} :
    msg.encode = .ok bytes ↔
      msg.countable = true ∧ Put.total (msg.puts 0) ≤ maxWord ∧
        Put.allBytes (msg.puts (UInt32.ofNat (Put.total (msg.puts 0)))) = bytes := by
  rw [encode_eq, encodedLength]
  by_cases hcountable : msg.countable = true
  · by_cases hword : Put.total (msg.puts 0) ≤ maxWord
    · simp [hcountable, hword, Nat.not_lt.2 hword]
    · simp [hcountable, hword, Nat.lt_of_not_le hword]
  · simp [hcountable]

/-- The length field of a frame says what the frame measures. -/
theorem declared_of_encode {msg : Message} {bytes : Bytes} (h : msg.encode = .ok bytes) :
    ∃ declared : UInt32, declared.toNat = bytes.length ∧
      bytes = Put.allBytes (msg.puts declared) := by
  obtain ⟨-, hword, hbytes⟩ := encode_eq_ok_iff.1 h
  refine ⟨UInt32.ofNat (Put.total (msg.puts 0)), ?_, hbytes.symm⟩
  rw [← hbytes, Put.length_allBytes, total_puts]
  exact UInt32.toNat_ofNat_of_lt' (Nat.lt_succ_of_le hword)

/-- A frame made in scratch memory is the frame of the message. -/
theorem fst_encodeScratch (msg : Message) (scratch : Scratch) :
    (msg.encodeScratch scratch).1 = msg.encode := by
  rw [encode_eq]
  unfold encodeScratch
  cases h : msg.encodedLength with
  | error e => rfl
  | ok length =>
      obtain ⟨-, htotal⟩ := encodedLength_eq_ok h
      simp only [Scratch.reserve]
      generalize Scratch.alignUp scratch.level frameAlignment = start
      have hgrown := Scratch.le_length_growTo scratch.cells (start + length)
      generalize hcells : Scratch.growTo scratch.cells (start + length) = cells at hgrown
      have hrange : ((⟨cells, start + length⟩ : Scratch).bytes ⟨start, start + length⟩).length =
          length := Scratch.length_bytes hgrown
      by_cases hword : length ≤ maxWord
      · have hframe : (Put.allBytes (msg.puts (UInt32.ofNat length))).length = length := by
          rw [Put.length_allBytes, total_puts, htotal]
        rw [writeFrame_of_fits h (Nat.le_of_eq hrange.symm) hword]
        simp only [List.drop_of_length_le (Nat.le_of_eq hrange), List.append_nil, Except.map,
          Nat.not_lt.2 hword, if_false, Except.ok.injEq]
        have hwritten := @Scratch.bytes_write ⟨cells, start + length⟩ start
          (Put.allBytes (msg.puts (UInt32.ofNat length))) (by rwa [hframe])
        rwa [hframe] at hwritten
      · have hlong : maxWord < length := Nat.not_le.1 hword
        simp [writeFrame, h, hrange, hlong, Except.map]

end Message

/-! ### Reading -/

namespace Cursor

theorem u16_bytes16 (n : UInt16) (rest : Bytes) (position : Nat) :
    (⟨bytes16 n ++ rest, position⟩ : Cursor).u16 = .ok (n, ⟨rest, position + 2⟩) := by
  simp [u16, bytes16, word16_bytes16]

theorem u32_bytes32 (n : UInt32) (rest : Bytes) (position : Nat) :
    (⟨bytes32 n ++ rest, position⟩ : Cursor).u32 = .ok (n, ⟨rest, position + 4⟩) := by
  simp [u32, bytes32, word32_bytes32]

theorem address_puts (addr : SocketV4) (rest : Bytes) (position : Nat) :
    (⟨Put.allBytes addr.puts ++ rest, position⟩ : Cursor).address =
      .ok (addr, ⟨rest, position + 6⟩) := by
  simp only [SocketV4.puts, Put.allBytes_cons, Put.allBytes_nil, Put.bytes, List.append_assoc,
    List.nil_append, address, bind, Except.bind, pure, Except.pure, u32_bytes32, u16_bytes16]

theorem entry_puts (entry : PeerEntry) (rest : Bytes) (position : Nat) :
    (⟨Put.allBytes entry.puts ++ rest, position⟩ : Cursor).entry =
      .ok (entry, ⟨rest, position + entryLength⟩) := by
  have hsplit : Put.allBytes entry.puts ++ rest =
      Put.allBytes entry.publicAddr.puts ++ (Put.allBytes entry.localAddr.puts ++ rest) := by
    simp [PeerEntry.puts, Put.allBytes]
  simp only [hsplit, Cursor.entry, bind, Except.bind, pure, Except.pure, address_puts]
  rfl

theorem allBytes_entries_cons (entry : PeerEntry) (listed : List PeerEntry) :
    Put.allBytes ((entry :: listed).flatMap PeerEntry.puts) =
      Put.allBytes entry.puts ++ Put.allBytes (listed.flatMap PeerEntry.puts) := by
  simp [Put.allBytes]

/-- As many entries as were written are read back. -/
theorem entries_puts (listed : List PeerEntry) (rest : Bytes) (position : Nat) :
    entries listed.length ⟨Put.allBytes (listed.flatMap PeerEntry.puts) ++ rest, position⟩ =
      .ok (listed, ⟨rest, position + entryLength * listed.length⟩) := by
  induction listed generalizing position with
  | nil => rfl
  | cons entry listed ih =>
      rw [allBytes_entries_cons, List.append_assoc]
      simp only [List.length_cons, entries, bind, Except.bind, pure, Except.pure, entry_puts, ih]
      rw [Nat.mul_succ, Nat.add_assoc, Nat.add_comm entryLength]

theorem length_entry_puts (entry : PeerEntry) :
    (Put.allBytes entry.puts).length = entryLength := rfl

theorem length_entries_puts (listed : List PeerEntry) :
    (Put.allBytes (listed.flatMap PeerEntry.puts)).length = entryLength * listed.length := by
  induction listed with
  | nil => rfl
  | cons entry listed ih =>
      rw [allBytes_entries_cons, List.length_append, length_entry_puts, ih, List.length_cons,
        Nat.mul_succ, Nat.add_comm]

/-- The fields of a message are read back. The count of a peer list is not refused, since
all its entries are there. -/
theorem payload_puts {msg : Message} (h : msg.countable = true) (rest : Bytes) (position : Nat) :
    ∃ position', (⟨Put.allBytes msg.payloadPuts ++ rest, position⟩ : Cursor).payload msg.kind =
      .ok (msg, ⟨rest, position'⟩) := by
  cases msg with
  | stunRequest => exact ⟨position, rfl⟩
  | keepAlive => exact ⟨position, rfl⟩
  | stunResponse observed =>
      refine ⟨position + 6, ?_⟩
      simp only [Message.payloadPuts, Message.kind, payload, bind, Except.bind, pure, Except.pure,
        address_puts]
  | connect entry =>
      refine ⟨position + entryLength, ?_⟩
      simp only [Message.payloadPuts, Message.kind, payload, bind, Except.bind, pure, Except.pure,
        entry_puts]
  | peersToConnect listed =>
      have hcount : (UInt32.ofNat listed.length).toNat = listed.length := by
        exact UInt32.toNat_ofNat_of_lt' (Nat.lt_succ_of_le (of_decide_eq_true h))
      -- A count is refused when the bytes left cannot hold that many entries.
      have hroom : ¬ (Put.allBytes (listed.flatMap PeerEntry.puts) ++ rest).length / entryLength <
          listed.length := by
        rw [List.length_append, length_entries_puts, Nat.mul_add_div (by decide)]
        exact Nat.not_lt.2 (Nat.le_add_right ..)
      refine ⟨position + 4 + entryLength * listed.length, ?_⟩
      simp only [Message.payloadPuts, Message.kind, payload, Put.allBytes_cons, Put.bytes,
        List.append_assoc, bind, Except.bind, pure, Except.pure, u32_bytes32, hcount, remaining,
        hroom, if_false, entries_puts]

end Cursor

namespace Message

/-- The frame of a message is decoded to the message. -/
theorem decode_encode {msg : Message} {bytes : Bytes} (h : msg.encode = .ok bytes) :
    decode bytes = .ok msg := by
  obtain ⟨hcountable, -⟩ := encode_eq_ok_iff.1 h
  obtain ⟨declared, hdeclared, hbytes⟩ := declared_of_encode h
  obtain ⟨position, hpayload⟩ := Cursor.payload_puts hcountable [] 9
  rw [List.append_nil] at hpayload
  -- No check refuses the frame, since its length field says what it measures.
  unfold decode
  rw [← hdeclared, hbytes, allBytes_puts]
  simp only [Cursor.start, bind, Except.bind, pure, Except.pure, Cursor.u32_bytes32, ne_eq,
    not_true_eq_false, if_false, Cursor.u8, MessageKind.ofTag_tag, hpayload, Cursor.remaining,
    List.length_nil]

/-- A message whose fields are counted has a frame if its length fits a word. -/
theorem encode_of_fits {msg : Message} (hcountable : msg.countable = true)
    (hfits : Put.total (msg.puts 0) ≤ maxWord) :
    ∃ bytes, msg.encode = .ok bytes ∧ bytes.length = Put.total (msg.puts 0) := by
  refine ⟨_, encode_eq_ok_iff.2 ⟨hcountable, hfits, rfl⟩, ?_⟩
  rw [Put.length_allBytes, total_puts]

/-- What the frame of a peer list measures. -/
theorem total_peersToConnect (entries : List PeerEntry) :
    Put.total ((peersToConnect entries).puts 0) = 13 + entryLength * entries.length := by
  have hentries : Put.total (entries.flatMap PeerEntry.puts) = entryLength * entries.length := by
    rw [← Put.length_allBytes, Cursor.length_entries_puts]
  simp only [puts, payloadPuts, Put.total_cons, Put.bytes, length_bytes32, hentries,
    List.length_singleton]
  omega

end Message

end Rendezvous
