import Rendezvous.Proofs.Wire.RoundTrip

/-!
# Rendezvous.Proofs.Wire.Canonical

**A message has one frame, and nothing but frames is decoded.** A cursor that reads a
field passes over exactly the bytes that writing the field would produce (`Consumed`),
so a decoded byte string is, byte for byte, the frame of the message it decodes to.

* `consumed_payload` is the converse of `Cursor.payload_puts`, put together from one
  lemma per field.
* `encode_of_decode` is the converse of `decode_encode`.
* `Message.frameLength` says what a frame measures by its layout alone. It is what the
  counting pass counts (`total_puts_eq`), and it alone decides whether there is a
  frame (`exists_encode_eq_error_iff`).
-/

namespace Rendezvous

/-- Two computations in sequence succeed when the first does and the second does with its
result. -/
theorem bind_eq_ok {ε α β : Type} {x : Except ε α} {f : α → Except ε β} {b : β} :
    (x >>= f) = .ok b ↔ ∃ a, x = .ok a ∧ f a = .ok b := by
  cases x with
  | error e => simp [bind, Except.bind]
  | ok a => simp [bind, Except.bind]

/-- A computation behind a check succeeds when it is let through and succeeds. -/
theorem unless_throw_eq_ok {ε β : Type} {refused : Prop} [Decidable refused] {e : ε}
    {x : Except ε β} {b : β} :
    (if refused then throw e >>= fun _ : Unit => x else x) = .ok b ↔ ¬ refused ∧ x = .ok b := by
  by_cases h : refused
  · simp [h, throw, throwThe, MonadExceptOf.throw, bind, Except.bind]
  · simp [h]

/-! ### What a read passes over -/

namespace MessageKind

/-- Only the tag of a kind announces it. -/
theorem tag_of_ofTag {tag : UInt8} {kind : MessageKind} (h : ofTag tag = .ok kind) :
    kind.tag = tag := by
  unfold ofTag at h
  repeat' split at h
  all_goals cases h
  all_goals exact Eq.symm ‹_›

end MessageKind

namespace Cursor

/-- Between two places of a byte string stand the bytes of some puts. -/
def Consumed (cur : Cursor) (puts : List Put) (next : Cursor) : Prop :=
  cur.rest = Put.allBytes puts ++ next.rest

theorem Consumed.refl (cur : Cursor) : cur.Consumed [] cur := rfl

theorem Consumed.trans {cur mid next : Cursor} {first second : List Put}
    (hfirst : cur.Consumed first mid) (hsecond : mid.Consumed second next) :
    cur.Consumed (first ++ second) next := by
  unfold Consumed at *
  rw [hfirst, hsecond]
  simp [Put.allBytes]

theorem consumed_u8 {cur next : Cursor} {n : UInt8} (h : cur.u8 = .ok (n, next)) :
    cur.Consumed [.u8 n] next := by
  unfold u8 at h
  split at h
  next a rest hrest =>
    cases h
    exact hrest
  next => cases h

theorem consumed_u16 {cur next : Cursor} {n : UInt16} (h : cur.u16 = .ok (n, next)) :
    cur.Consumed [.u16 n] next := by
  unfold u16 at h
  split at h
  next a b rest hrest =>
    cases h
    simp [Consumed, Put.bytes, bytes16_word16, hrest]
  next => cases h

theorem consumed_u32 {cur next : Cursor} {n : UInt32} (h : cur.u32 = .ok (n, next)) :
    cur.Consumed [.u32 n] next := by
  unfold u32 at h
  split at h
  next a b c d rest hrest =>
    cases h
    simp [Consumed, Put.bytes, bytes32_word32, hrest]
  next => cases h

theorem consumed_address {cur next : Cursor} {addr : SocketV4}
    (h : cur.address = .ok (addr, next)) : cur.Consumed addr.puts next := by
  simp only [address, bind_eq_ok, Prod.exists] at h
  obtain ⟨bits, mid, hbits, port, last, hport, hlast⟩ := h
  cases hlast
  exact (consumed_u32 hbits).trans (consumed_u16 hport)

theorem consumed_entry {cur next : Cursor} {peer : PeerEntry}
    (h : cur.entry = .ok (peer, next)) : cur.Consumed peer.puts next := by
  simp only [entry, bind_eq_ok, Prod.exists] at h
  obtain ⟨publicAddr, mid, hpublic, localAddr, last, hlocal, hlast⟩ := h
  cases hlast
  exact (consumed_address hpublic).trans (consumed_address hlocal)

/-- As many entries are read as were asked for, and only their bytes are passed. -/
theorem consumed_entries {count : Nat} {cur next : Cursor} {listed : List PeerEntry}
    (h : entries count cur = .ok (listed, next)) :
    listed.length = count ∧ cur.Consumed (listed.flatMap PeerEntry.puts) next := by
  induction count generalizing cur listed with
  | zero =>
      cases h
      exact ⟨rfl, .refl _⟩
  | succ count ih =>
      simp only [entries, bind_eq_ok, Prod.exists] at h
      obtain ⟨first, mid, hfirst, more, last, hmore, hlast⟩ := h
      cases hlast
      obtain ⟨hlength, hconsumed⟩ := ih hmore
      exact ⟨congrArg Nat.succ hlength, (consumed_entry hfirst).trans hconsumed⟩

/-- The fields read for a kind make a message of that kind, whose count field holds the
number of its entries, and only their bytes are passed. -/
theorem consumed_payload {kind : MessageKind} {cur next : Cursor} {msg : Message}
    (h : cur.payload kind = .ok (msg, next)) :
    msg.kind = kind ∧ msg.countable = true ∧ cur.Consumed msg.payloadPuts next := by
  cases kind with
  | stunRequest =>
      cases h
      exact ⟨rfl, rfl, .refl cur⟩
  | keepAlive =>
      cases h
      exact ⟨rfl, rfl, .refl cur⟩
  | stunResponse =>
      simp only [payload, bind_eq_ok, Prod.exists] at h
      obtain ⟨observed, last, hobserved, hlast⟩ := h
      cases hlast
      exact ⟨rfl, rfl, consumed_address hobserved⟩
  | connect =>
      simp only [payload, bind_eq_ok, Prod.exists] at h
      obtain ⟨peer, last, hpeer, hlast⟩ := h
      cases hlast
      exact ⟨rfl, rfl, consumed_entry hpeer⟩
  | peersToConnect =>
      simp only [payload, bind_eq_ok, unless_throw_eq_ok, Prod.exists] at h
      obtain ⟨count, mid, hcount, -, listed, last, hlisted, hlast⟩ := h
      cases hlast
      obtain ⟨hlength, hconsumed⟩ := consumed_entries hlisted
      -- The entries were counted by a word, so writing their number gives that word back.
      have hword : UInt32.ofNat listed.length = count := by rw [hlength, UInt32.ofNat_toNat]
      have hcountable : listed.length ≤ maxWord := by
        rw [hlength]
        exact Nat.le_of_lt_succ count.toNat_lt
      refine ⟨rfl, decide_eq_true hcountable, ?_⟩
      rw [Message.payloadPuts, hword]
      exact (consumed_u32 hcount).trans hconsumed

end Cursor

namespace Message

/-- A byte string that is decoded is the frame of the message it is decoded to. -/
theorem encode_of_decode {bytes : Bytes} {msg : Message} (h : decode bytes = .ok msg) :
    msg.encode = .ok bytes := by
  simp only [decode, bind_eq_ok, unless_throw_eq_ok, Prod.exists, ne_eq, Decidable.not_not] at h
  obtain ⟨word, afterMagic, hmagic, rfl, declared, afterLength, hlength, hdeclared,
    tag, afterTag, htag, kind, hkind, decoded, last, hpayload, hend, hdecoded⟩ := h
  cases hdecoded
  obtain ⟨rfl, hcountable, hfields⟩ := Cursor.consumed_payload hpayload
  have hdone : last.rest = [] := List.eq_nil_of_length_eq_zero hend
  -- All that was read stands for the puts of the message, with the length that was declared.
  have hconsumed : (Cursor.start bytes).Consumed (msg.puts declared) last := by
    rw [puts, MessageKind.tag_of_ofTag hkind]
    exact (Cursor.consumed_u32 hmagic).trans
      ((Cursor.consumed_u32 hlength).trans ((Cursor.consumed_u8 htag).trans hfields))
  have hbytes : bytes = Put.allBytes (msg.puts declared) := by
    simpa [Cursor.Consumed, Cursor.start, hdone] using hconsumed
  have htotal : Put.total (msg.puts 0) = declared.toNat := by
    rw [hdeclared, ← total_puts msg declared, ← Put.length_allBytes, ← hbytes]
  have hfits : declared.toNat ≤ maxWord := Nat.le_of_lt_succ declared.toNat_lt
  refine encode_eq_ok_iff.2 ⟨hcountable, htotal ▸ hfits, ?_⟩
  rw [htotal, UInt32.ofNat_toNat, hbytes]

/-! ### How long a frame is -/

/-- What the frame of a message measures by its layout: the header and the tag, an
address, an entry, or a count and as many entries. -/
def frameLength : Message → Nat
  | stunRequest => minFrameLength
  | stunResponse _ => minFrameLength + 6
  | keepAlive => minFrameLength
  | connect _ => minFrameLength + entryLength
  | peersToConnect entries => minFrameLength + 4 + entryLength * entries.length

/-- The counting pass counts what the frame measures. -/
theorem total_puts_eq (msg : Message) : Put.total (msg.puts 0) = msg.frameLength := by
  cases msg with
  | stunRequest => rfl
  | stunResponse observed => rfl
  | keepAlive => rfl
  | connect entry => rfl
  | peersToConnect entries => exact total_peersToConnect entries

/-- More entries than the count field can hold do not fit the length field either. -/
theorem countable_of_fits {msg : Message} (h : msg.frameLength ≤ maxWord) :
    msg.countable = true := by
  cases msg with
  | peersToConnect entries =>
      have hentry : entryLength = 12 := rfl
      refine decide_eq_true ?_
      rw [frameLength, hentry] at h
      omega
  | _ => rfl

theorem encodedLength_of_countable {msg : Message} (h : msg.countable = true) :
    msg.encodedLength = .ok msg.frameLength := by
  rw [encodedLength, if_pos h, total_puts_eq]

/-- There is a frame unless it would be too long for the length field. -/
theorem exists_encode_eq_ok_iff {msg : Message} :
    (∃ bytes, msg.encode = .ok bytes) ↔ msg.frameLength ≤ maxWord := by
  simp only [encode_eq_ok_iff, total_puts_eq]
  constructor
  · rintro ⟨bytes, -, hfits, -⟩
    exact hfits
  · intro hfits
    exact ⟨_, countable_of_fits hfits, hfits, rfl⟩

theorem exists_encode_eq_error_iff {msg : Message} :
    (∃ e, msg.encode = .error e) ↔ maxWord < msg.frameLength := by
  rw [← Nat.not_le, ← exists_encode_eq_ok_iff]
  cases msg.encode with
  | error e => simp
  | ok bytes => simp

/-- The header of a frame declares what the frame measures. -/
theorem declaredLength_of_encode {msg : Message} {bytes : Bytes} (h : msg.encode = .ok bytes) :
    declaredLength bytes = some bytes.length := by
  obtain ⟨declared, hdeclared, hbytes⟩ := declared_of_encode h
  rw [allBytes_puts] at hbytes
  have hmagic : peekWord bytes = some magic := by rw [hbytes, peekWord_bytes32]
  have hafter : peekWord (bytes.drop 4) = some declared := by
    rw [hbytes, List.drop_left' (length_bytes32 magic), peekWord_bytes32]
  simp [declaredLength, startsWithMagic, hmagic, hafter, hdeclared]

theorem length_of_encode {msg : Message} {bytes : Bytes} (h : msg.encode = .ok bytes) :
    bytes.length = msg.frameLength := by
  obtain ⟨-, -, hbytes⟩ := encode_eq_ok_iff.1 h
  rw [← hbytes, Put.length_allBytes, total_puts, total_puts_eq]

theorem minFrameLength_le_of_encode {msg : Message} {bytes : Bytes} (h : msg.encode = .ok bytes) :
    minFrameLength ≤ bytes.length := by
  rw [length_of_encode h]
  cases msg <;> simp only [frameLength] <;> omega

/-- **Frames are canonical.** A message whose frame is not too long for the length field is
encoded, and no other is. Its frame is decoded to it, and is as long as its header
declares, as the counting pass says and as the layout says. And a byte string is decoded
to a message just when it is the frame of that message. -/
theorem frames_canonical :
    (∀ msg : Message, msg.frameLength ≤ maxWord →
      ∃ bytes, msg.encode = .ok bytes ∧ decode bytes = .ok msg ∧
        declaredLength bytes = some bytes.length ∧ msg.encodedLength = .ok bytes.length ∧
        bytes.length = msg.frameLength) ∧
    (∀ msg : Message, (∃ e, msg.encode = .error e) ↔ maxWord < msg.frameLength) ∧
    (∀ (msg : Message) (length : Nat), msg.encodedLength = .ok length → length = msg.frameLength) ∧
    ∀ (bytes : Bytes) (msg : Message), decode bytes = .ok msg ↔ msg.encode = .ok bytes := by
  refine ⟨?_, fun msg => exists_encode_eq_error_iff, ?_, ?_⟩
  · intro msg hfits
    obtain ⟨bytes, hencode⟩ := exists_encode_eq_ok_iff.2 hfits
    have hlength := length_of_encode hencode
    have hcounted := encodedLength_of_countable (countable_of_fits hfits)
    exact ⟨bytes, hencode, decode_encode hencode, declaredLength_of_encode hencode,
      hlength ▸ hcounted, hlength⟩
  · intro msg length h
    obtain ⟨-, htotal⟩ := encodedLength_eq_ok h
    rw [← htotal, total_puts_eq]
  · intro bytes msg
    exact ⟨encode_of_decode, decode_encode⟩

/-- The frame of a list of one peer, both ways. -/
theorem frames_canonical_one_peer :
    (∃ bytes, (peersToConnect [⟨⟨⟨0x01020304⟩, 5⟩, ⟨⟨0x0a000001⟩, 6⟩⟩]).encode = .ok bytes ∧
      declaredLength bytes = some 25) ∧
    decode [0x54, 0x45, 0x4e, 0x54, 0, 0, 0, 25, 5, 0, 0, 0, 1,
        1, 2, 3, 4, 0, 5, 10, 0, 0, 1, 0, 6] =
      .ok (peersToConnect [⟨⟨⟨0x01020304⟩, 5⟩, ⟨⟨0x0a000001⟩, 6⟩⟩]) := by
  obtain ⟨hencoded, -, -, hdecoded⟩ := frames_canonical
  obtain ⟨bytes, hencode, -, hdeclared, -, hlength⟩ :=
    hencoded (peersToConnect [⟨⟨⟨0x01020304⟩, 5⟩, ⟨⟨0x0a000001⟩, 6⟩⟩]) (by decide)
  rw [hlength] at hdeclared
  exact ⟨⟨bytes, hencode, hdeclared⟩, (hdecoded _ _).2 rfl⟩

end Message

end Rendezvous
