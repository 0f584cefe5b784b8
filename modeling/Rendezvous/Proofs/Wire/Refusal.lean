import Rendezvous.Proofs.Wire.Canonical

/-!
# Rendezvous.Proofs.Wire.Refusal

**Which check refuses a byte string.** A byte string that is not a frame is refused by the
first of a row of checks that it does not pass, and `decode` answers with that check's error
and no other.

* `refusal` is the row of checks, said on the bytes as they stand: where the words are, what
  numbers they spell (`spelled`), and how much room the fields of a kind take
  (`layoutLength`). No cursor moves in it.
* `Cursor.Takes` says of a read that it needs a number of bytes, fails when they are not
  there, and succeeds otherwise. Reads in sequence take the sum (`Takes.bind`), so every
  reader up to `Cursor.payload` has one such lemma.
* `room_lt_count_iff` and `takes_entries` are about the count of a peer list: it is refused
  exactly when the bytes left are too few for as many entries, whatever the count says.
* `refuses_exactly` puts them together.
-/

namespace Rendezvous

/-- The number that bytes spell, most significant first. -/
def spelled (bytes : Bytes) : Nat := bytes.foldl (fun number byte => number * 256 + byte.toNat) 0

theorem toNat_word32_eq_spelled (a b c d : UInt8) :
    (word32 a b c d).toNat = spelled [a, b, c, d] := by
  rw [toNat_word32]
  show _ = (((0 * 256 + a.toNat) * 256 + b.toNat) * 256 + c.toNat) * 256 + d.toNat
  omega

namespace Message

/-! ### The row of checks -/

/-- What the fields of a message measure, said by its tag and the bytes behind the tag:
nothing, an address, an entry, or a count and as many entries. No other tag belongs to a
message. -/
def layoutLength (tag : UInt8) (payload : Bytes) : Option Nat :=
  match tag.toNat with
  | 1 => some 0
  | 2 => some 6
  | 3 => some 0
  | 4 => some 12
  -- Where the count itself is cut short the layout is longer than what there is in any case.
  | 5 => some (4 + 12 * spelled (payload.take 4))
  | _ => none

/-- The first check that the bytes from the tag on do not pass. -/
def fieldsRefusal : Bytes → Option CodecError
  | [] => some .truncated
  | tag :: payload =>
    match layoutLength tag payload with
    | none => some (.unknownType tag)
    | some length =>
      if payload.length < length then some .truncated
      else if length < payload.length then some (.trailingBytes (payload.length - length))
      else none

/-- The first check that a byte string does not pass. -/
def refusal (bytes : Bytes) : Option CodecError :=
  if bytes.length < 4 then some .truncated
  else if spelled (bytes.take 4) ≠ 0x54454e54 then
    some (.badMagic (UInt32.ofNat (spelled (bytes.take 4))))
  else if bytes.length < 8 then some .truncated
  else if spelled ((bytes.drop 4).take 4) ≠ bytes.length then
    some (.lengthMismatch (spelled ((bytes.drop 4).take 4)) bytes.length)
  else fieldsRefusal (bytes.drop 8)

end Message

/-! ### What a read takes -/

namespace Cursor

variable {α β : Type}

/-- The place some bytes further on. -/
def skip (cur : Cursor) (count : Nat) : Cursor := ⟨cur.rest.drop count, cur.position + count⟩

@[simp] theorem skip_zero (cur : Cursor) : cur.skip 0 = cur := rfl

@[simp] theorem skip_skip (cur : Cursor) (m n : Nat) : (cur.skip m).skip n = cur.skip (m + n) := by
  simp [skip, Nat.add_assoc]

@[simp] theorem remaining_skip (cur : Cursor) (count : Nat) :
    (cur.skip count).remaining = cur.remaining - count := by
  simp [skip, remaining]

/-- A read at a place takes a number of bytes: it is cut short when they are not there, and
stops behind them when they are. -/
structure Takes (cur : Cursor) (count : Nat) (answer : Except CodecError (α × Cursor)) : Prop where
  short : cur.remaining < count → answer = .error .truncated
  whole : count ≤ cur.remaining → ∃ value, answer = .ok (value, cur.skip count)

theorem Takes.pure (cur : Cursor) (value : α) : cur.Takes 0 (Pure.pure (value, cur)) where
  short := fun h => absurd h (Nat.not_lt_zero _)
  whole := fun _ => ⟨value, rfl⟩

/-- Reads in sequence take as many bytes as both. -/
theorem Takes.bind {cur : Cursor} {m n : Nat} {first : Except CodecError (α × Cursor)}
    {next : α × Cursor → Except CodecError (β × Cursor)} (hfirst : cur.Takes m first)
    (hnext : ∀ value, (cur.skip m).Takes n (next (value, cur.skip m))) :
    cur.Takes (m + n) (first >>= next) := by
  by_cases hroom : cur.remaining < m
  · -- The first read is cut short, and nothing comes after it.
    rw [hfirst.short hroom]
    exact ⟨fun _ => rfl, fun h => by omega⟩
  · obtain ⟨value, hvalue⟩ := hfirst.whole (by omega)
    rw [hvalue]
    refine ⟨fun h => (hnext value).short ?_, fun h => ?_⟩
    · rw [remaining_skip]
      omega
    · obtain ⟨more, hmore⟩ := (hnext value).whole (by rw [remaining_skip]; omega)
      exact ⟨more, by rw [← skip_skip]; exact hmore⟩

theorem takes_u16 (cur : Cursor) : cur.Takes 2 cur.u16 := by
  obtain ⟨rest, position⟩ := cur
  match rest with
  | [] | [_] => exact ⟨fun _ => rfl, fun h => absurd h (by simp [remaining])⟩
  | a :: b :: rest =>
    exact ⟨fun h => absurd h (by simp [remaining]), fun _ => ⟨word16 a b, rfl⟩⟩

theorem u32_of_short {cur : Cursor} (h : cur.remaining < 4) : cur.u32 = .error .truncated := by
  obtain ⟨rest, position⟩ := cur
  match rest with
  | [] | [_] | [_, _] | [_, _, _] => rfl
  | _ :: _ :: _ :: _ :: _ =>
    simp only [remaining, List.length_cons] at h
    omega

/-- A word that is read is the number that its bytes spell. -/
theorem u32_of_room {cur : Cursor} (h : 4 ≤ cur.remaining) :
    ∃ word, cur.u32 = .ok (word, cur.skip 4) ∧ word.toNat = spelled (cur.rest.take 4) := by
  obtain ⟨rest, position⟩ := cur
  match rest with
  | [] | [_] | [_, _] | [_, _, _] => simp [remaining] at h
  | a :: b :: c :: d :: rest => exact ⟨word32 a b c d, rfl, toNat_word32_eq_spelled a b c d⟩

theorem takes_u32 (cur : Cursor) : cur.Takes 4 cur.u32 where
  short := u32_of_short
  whole := fun h => by
    obtain ⟨word, hword, -⟩ := u32_of_room h
    exact ⟨word, hword⟩

theorem takes_address (cur : Cursor) : cur.Takes 6 cur.address := by
  refine Takes.bind (m := 4) (n := 2) (takes_u32 cur) fun bits => ?_
  refine Takes.bind (m := 2) (n := 0) (takes_u16 _) fun port => ?_
  exact .pure _ _

theorem takes_entry (cur : Cursor) : cur.Takes 12 cur.entry := by
  refine Takes.bind (m := 6) (n := 6) (takes_address cur) fun publicAddr => ?_
  refine Takes.bind (m := 6) (n := 0) (takes_address _) fun localAddr => ?_
  exact .pure _ _

/-- As many entries as are asked for are read if there are bytes for them. -/
theorem takes_entries (count : Nat) (cur : Cursor) : cur.Takes (12 * count) (entries count cur) := by
  induction count generalizing cur with
  | zero => exact .pure cur []
  | succ count ih =>
      rw [Nat.mul_succ, Nat.add_comm]
      refine Takes.bind (m := 12) (n := 12 * count) (takes_entry cur) fun first => ?_
      refine Takes.bind (m := 12 * count) (n := 0) (ih _) fun more => ?_
      exact .pure _ _

/-- The check of a count before any entry is read: the bytes left hold fewer entries just
when they are fewer than as many entries take. -/
theorem room_lt_count_iff (room count : Nat) : room / entryLength < count ↔ room < 12 * count := by
  show room / 12 < count ↔ room < 12 * count
  omega

/-- So a list takes its count and as many entries as the count says, and its entries are
never cut short behind the check. -/
theorem takes_list (cur : Cursor) :
    cur.Takes (4 + 12 * spelled (cur.rest.take 4)) (cur.payload .peersToConnect) := by
  by_cases hroom : cur.remaining < 4
  · simp only [payload, u32_of_short hroom, bind, Except.bind]
    exact ⟨fun _ => rfl, fun h => by omega⟩
  · obtain ⟨count, hcount, hspelled⟩ := u32_of_room (Nat.not_lt.1 hroom)
    have hentries := takes_entries count.toNat (cur.skip 4)
    rw [← hspelled]
    simp only [payload, hcount, bind, Except.bind, room_lt_count_iff, remaining_skip]
    by_cases hfew : cur.remaining - 4 < 12 * count.toNat
    · rw [if_pos hfew]
      exact ⟨fun _ => rfl, fun h => by omega⟩
    · obtain ⟨listed, hlisted⟩ := hentries.whole (by rw [remaining_skip]; omega)
      rw [if_neg hfew, hlisted, skip_skip]
      exact ⟨fun h => by omega, fun _ => ⟨.peersToConnect listed, rfl⟩⟩

/-- The fields of a kind take what the layout says. -/
theorem takes_payload (cur : Cursor) (kind : MessageKind) :
    ∃ length, Message.layoutLength kind.tag cur.rest = some length ∧
      cur.Takes length (cur.payload kind) := by
  cases kind with
  | stunRequest => exact ⟨0, rfl, .pure cur _⟩
  | keepAlive => exact ⟨0, rfl, .pure cur _⟩
  | stunResponse =>
      refine ⟨6, rfl, Takes.bind (m := 6) (n := 0) (takes_address cur) fun observed => ?_⟩
      exact .pure _ _
  | connect =>
      refine ⟨12, rfl, Takes.bind (m := 12) (n := 0) (takes_entry cur) fun entry => ?_⟩
      exact .pure _ _
  | peersToConnect => exact ⟨_, rfl, takes_list cur⟩

end Cursor

/-! ### The checks in order -/

/-- A tag announces a kind, or no message has it and it has no layout. -/
theorem MessageKind.ofTag_cases (tag : UInt8) :
    (∃ kind : MessageKind, kind.tag = tag ∧ ofTag tag = .ok kind) ∨
      (ofTag tag = .error (.unknownType tag) ∧
        ∀ payload, Message.layoutLength tag payload = none) := by
  cases hkind : ofTag tag with
  | ok kind => exact .inl ⟨kind, tag_of_ofTag hkind, rfl⟩
  | error e =>
      have hunknown (kind : MessageKind) : tag ≠ kind.tag := fun h => by
        rw [h, ofTag_tag] at hkind
        cases hkind
      refine .inr ⟨?_, fun payload => ?_⟩
      · simpa [ofTag, show tag ≠ 1 from hunknown .stunRequest,
          show tag ≠ 2 from hunknown .stunResponse, show tag ≠ 3 from hunknown .keepAlive,
          show tag ≠ 4 from hunknown .connect, show tag ≠ 5 from hunknown .peersToConnect,
          eq_comm] using hkind
      · unfold Message.layoutLength
        split
        next h => exact absurd (UInt8.toNat_inj.1 h) (hunknown .stunRequest)
        next h => exact absurd (UInt8.toNat_inj.1 h) (hunknown .stunResponse)
        next h => exact absurd (UInt8.toNat_inj.1 h) (hunknown .keepAlive)
        next h => exact absurd (UInt8.toNat_inj.1 h) (hunknown .connect)
        next h => exact absurd (UInt8.toNat_inj.1 h) (hunknown .peersToConnect)
        next => rfl

/-- The error of a computation, if it fails. -/
def errorOf {ε α : Type} : Except ε α → Option ε
  | .error e => some e
  | .ok _ => none

theorem errorOf_eq_some_iff {ε α : Type} {x : Except ε α} {e : ε} :
    errorOf x = some e ↔ x = .error e := by
  cases x <;> simp [errorOf]

theorem errorOf_eq_none_iff {ε α : Type} {x : Except ε α} :
    errorOf x = none ↔ ∃ a, x = .ok a := by
  cases x <;> simp [errorOf]

namespace Message

/-- What is decoded behind the header: the tag and the fields, with nothing left over. -/
def decodeFields (cur : Cursor) : Except CodecError Message := do
  let (tag, cur) ← cur.u8
  let kind ← MessageKind.ofTag tag
  let (msg, cur) ← cur.payload kind
  if cur.remaining ≠ 0 then throw (.trailingBytes cur.remaining)
  return msg

theorem errorOf_decodeFields (cur : Cursor) :
    errorOf (decodeFields cur) = fieldsRefusal cur.rest := by
  obtain ⟨rest, position⟩ := cur
  cases rest with
  | nil => rfl
  | cons tag payload =>
      have htag : (⟨tag :: payload, position⟩ : Cursor).u8 = .ok (tag, ⟨payload, position + 1⟩) := rfl
      rcases MessageKind.ofTag_cases tag with ⟨kind, rfl, hkind⟩ | ⟨hunknown, hlayout⟩
      · obtain ⟨length, hlayout, htakes⟩ := Cursor.takes_payload ⟨payload, position + 1⟩ kind
        simp only [decodeFields, fieldsRefusal, htag, hkind, hlayout, bind, Except.bind]
        by_cases hshort : payload.length < length
        · rw [htakes.short hshort, if_pos hshort]
          rfl
        · obtain ⟨msg, hmsg⟩ := htakes.whole (Nat.not_lt.1 hshort)
          have hleft : (Cursor.skip ⟨payload, position + 1⟩ length).remaining =
              payload.length - length := Cursor.remaining_skip _ _
          simp only [hmsg, if_neg hshort, hleft]
          by_cases hlong : length < payload.length
          · rw [if_pos hlong, if_pos (by omega)]
            rfl
          · rw [if_neg hlong, if_neg (by omega)]
            rfl
      · simp only [decodeFields, fieldsRefusal, htag, hunknown, hlayout, bind, Except.bind]
        rfl

/-- The header is read first: two words, each with its check, and then the fields. -/
theorem decode_eq (bytes : Bytes) :
    decode bytes = (do
      let (word, cur) ← (Cursor.start bytes).u32
      if word ≠ magic then throw (.badMagic word)
      let (declared, cur) ← cur.u32
      if declared.toNat ≠ bytes.length then throw (.lengthMismatch declared.toNat bytes.length)
      decodeFields cur) := rfl

/-- The first check that refuses a byte string is the one whose error is answered. -/
theorem errorOf_decode (bytes : Bytes) : errorOf (decode bytes) = refusal bytes := by
  rw [decode_eq, refusal]
  by_cases hshort : bytes.length < 4
  · rw [Cursor.u32_of_short (show (Cursor.start bytes).remaining < 4 from hshort), if_pos hshort]
    rfl
  obtain ⟨word, hword, hfirst⟩ :=
    Cursor.u32_of_room (show 4 ≤ (Cursor.start bytes).remaining from Nat.not_lt.1 hshort)
  have hfirst : word.toNat = spelled (bytes.take 4) := hfirst
  simp only [hword, if_neg hshort, ← hfirst, bind, Except.bind]
  by_cases hmagic : word = magic
  · have hspelled : word.toNat = 0x54454e54 := congrArg UInt32.toNat hmagic
    rw [if_neg (not_not.2 hmagic), if_neg (not_not.2 hspelled)]
    have hafter : ((Cursor.start bytes).skip 4).remaining = bytes.length - 4 :=
      Cursor.remaining_skip _ _
    by_cases hcut : bytes.length < 8
    · rw [Cursor.u32_of_short (by omega), if_pos hcut]
      rfl
    obtain ⟨declared, hdeclared, hsecond⟩ :=
      Cursor.u32_of_room (show 4 ≤ ((Cursor.start bytes).skip 4).remaining by omega)
    have hsecond : declared.toNat = spelled ((bytes.drop 4).take 4) := hsecond
    simp only [hdeclared, if_neg hcut, ← hsecond]
    by_cases hother : declared.toNat = bytes.length
    · rw [if_neg (not_not.2 hother), if_neg (not_not.2 hother), Cursor.skip_skip]
      exact errorOf_decodeFields _
    · rw [if_pos hother, if_pos hother]
      rfl
  · have hspelled : word.toNat ≠ 0x54454e54 := fun h => hmagic (UInt32.toNat_inj.1 h)
    rw [if_pos hmagic, if_pos hspelled, UInt32.ofNat_toNat]
    rfl

/-- **What is refused, and why.** A byte string is answered with the error of the first check
that it does not pass, and with a message if it passes them all. The check of a peer list's
count refuses just the counts for which there are too few bytes, whatever they are; behind
it all entries are read, as many as the count says and no more than the bytes hold. -/
theorem refuses_exactly (bytes : Bytes) :
    (∀ e, decode bytes = .error e ↔ refusal bytes = some e) ∧
    ((∃ msg, decode bytes = .ok msg) ↔ refusal bytes = none) ∧
    ∀ (count : UInt32) (cur : Cursor),
      (cur.remaining / entryLength < count.toNat ↔ cur.remaining < 12 * count.toNat) ∧
      (¬ cur.remaining / entryLength < count.toNat →
        ∃ listed, Cursor.entries count.toNat cur = .ok (listed, cur.skip (12 * count.toNat)) ∧
          listed.length = count.toNat ∧ 12 * listed.length ≤ cur.remaining) := by
  refine ⟨fun e => ?_, ?_, fun count cur => ⟨Cursor.room_lt_count_iff _ _, fun hroom => ?_⟩⟩
  · rw [← errorOf_decode, errorOf_eq_some_iff]
  · rw [← errorOf_decode, errorOf_eq_none_iff]
  · have hbytes : 12 * count.toNat ≤ cur.remaining := by
      rwa [Cursor.room_lt_count_iff, Nat.not_lt] at hroom
    obtain ⟨listed, hlisted⟩ := (Cursor.takes_entries count.toNat cur).whole hbytes
    have hlength : listed.length = count.toNat := (Cursor.consumed_entries hlisted).1
    exact ⟨listed, hlisted, hlength, hlength ▸ hbytes⟩

/-- A list that claims as many entries as a word can say and holds one is cut short, and one
that claims none has an entry too many. -/
theorem refuses_claimed_counts :
    decode [0x54, 0x45, 0x4e, 0x54, 0, 0, 0, 25, 5, 0xff, 0xff, 0xff, 0xff,
        1, 2, 3, 4, 0, 5, 10, 0, 0, 1, 0, 6] = .error .truncated ∧
    decode [0x54, 0x45, 0x4e, 0x54, 0, 0, 0, 25, 5, 0, 0, 0, 0,
        1, 2, 3, 4, 0, 5, 10, 0, 0, 1, 0, 6] = .error (.trailingBytes 12) ∧
    ∃ listed, Cursor.entries 1 ⟨[1, 2, 3, 4, 0, 5, 10, 0, 0, 1, 0, 6], 13⟩ = .ok (listed, ⟨[], 25⟩) ∧
      listed.length = 1 := by
  refine ⟨((refuses_exactly _).1 _).2 (by decide), ((refuses_exactly _).1 _).2 (by decide), ?_⟩
  obtain ⟨listed, hlisted, hlength, -⟩ := ((refuses_exactly []).2.2 1
    ⟨[1, 2, 3, 4, 0, 5, 10, 0, 0, 1, 0, 6], 13⟩).2 (by decide)
  exact ⟨listed, hlisted, hlength⟩

end Message

end Rendezvous
