import Rendezvous.Proofs.Channel.Reading

/-!
# Rendezvous.Proofs.Channel.Rounds

**Looking for a frame ends, after no more rounds than there are bytes and one.** `cut` answers
the next frame at once. A `Scan` looks for it in rounds: it remembers the length of the frame at
the head, whose header is then read only once, and otherwise drops one byte in each round.

* `Scan.ends_cut`: the rounds of one search come to what `cut` says, and end.
* `Scan.drains_drain`: so do searches for as long as they find a frame that decodes.
* `Scan.Sound` holds of every scan on the way. What is remembered is the length that the held
  bytes declare, which more bytes behind them do not change.
* `Reassembly.size_rest_drain_lt`: after such searches there is room for another byte, also when
  they stopped early at a frame that does not decode.
-/

namespace Rendezvous

/-! ### The head of a reassembly -/

namespace Reassembly

/-- The first eight bytes settle the length, so more bytes behind them do not change it. -/
theorem headLength_append {r : Reassembly} {n : Nat} (h : r.headLength = some n) (more : Bytes) :
    (r.append more).headLength = some n := by
  obtain ⟨hlong, hstart⟩ := headLength_eq_some h
  have hlong' : 8 ≤ (r.held ++ more).length := by
    rw [List.length_append]
    omega
  have hmissing : ¬ headerMissing (r.held ++ more) = true := by
    rw [headerMissing_iff]
    omega
  rw [headLength, append, if_neg hmissing, frameStart_eq_some_iff hlong' [], List.append_nil]
  exact (frameStart_eq_some_iff hlong more).1 hstart

/-- A reassembly that is done with its garbage. -/
theorem skipGarbage_eq_self {r : Reassembly} (h : garbage r.capacity r.held = 0) :
    r.skipGarbage = r := by
  simp [skipGarbage, h]

theorem garbage_of_headerMissing {bytes : Bytes} (h : headerMissing bytes = true)
    (capacity : Nat) : garbage capacity bytes = 0 := by
  cases bytes with
  | nil => rfl
  | cons byte rest => rw [garbage, if_pos h]

theorem garbage_of_frameStart {capacity n : Nat} {bytes : Bytes}
    (h : frameStart capacity bytes = some n) : garbage capacity bytes = 0 := by
  cases bytes with
  | nil => rfl
  | cons byte rest =>
      rw [garbage]
      split
      · rfl
      · rw [if_pos (by rw [h]; rfl)]

/-- Where a frame starts, it is cut off if it is complete. -/
theorem cut_of_headLength {r : Reassembly} {n : Nat} (h : r.headLength = some n) :
    r.cut = if r.size < n then (none, r)
      else (some (Message.decode (r.held.take n)), { r with held := r.held.drop n }) := by
  have hgarbage := garbage_of_frameStart (headLength_eq_some h).2
  simp only [cut, skipGarbage_eq_self hgarbage, h]

theorem cut_of_headerMissing {r : Reassembly} (h : headerMissing r.held = true) :
    r.cut = (none, r) := by
  have hhead : r.headLength = none := by rw [headLength, if_pos h]
  simp only [cut, skipGarbage_eq_self (garbage_of_headerMissing h _), hhead]

/-- A byte that starts no frame is dropped first. -/
theorem cut_of_garbage {r : Reassembly} {byte : UInt8} {rest : Bytes}
    (hheld : r.held = byte :: rest) (hlong : headerMissing r.held = false)
    (hstart : frameStart r.capacity r.held = none) :
    garbage r.capacity r.held = garbage r.capacity rest + 1 ∧
      r.cut = Reassembly.cut ⟨r.capacity, rest, r.skipped + 1⟩ := by
  have hgarbage : garbage r.capacity (byte :: rest) = garbage r.capacity rest + 1 := by
    rw [hheld] at hlong hstart
    rw [garbage, if_neg (by simp [hlong]), if_neg (by simp [hstart])]
  have hskip : r.skipGarbage = Reassembly.skipGarbage ⟨r.capacity, rest, r.skipped + 1⟩ := by
    simp [skipGarbage, hheld, hgarbage, Nat.add_assoc, Nat.add_comm 1]
  exact ⟨hheld ▸ hgarbage, by simp only [cut, hskip]⟩

/-! ### Room for more -/

/-- A frame that is cut off takes a byte with it, besides the garbage before it. -/
theorem garbage_add_size_cut_lt {r rest : Reassembly} {answer : Except CodecError Message}
    (h : r.cut = (some answer, rest)) :
    garbage r.capacity r.held + rest.size < r.size := by
  rcases r.cut_cases with ⟨n, hhead, hn, hcut⟩ | ⟨hcut, -⟩
  · cases h.symm.trans hcut
    have hpos : 9 ≤ n := (headLength_bounds hhead).1
    simp only [size, skipGarbage, List.length_drop] at hn ⊢
    omega
  · cases h.symm.trans hcut

/-- Bytes of which nothing can be cut are fewer than the longest frame has. -/
theorem length_lt_of_segment_eq {capacity : Nat} {bytes : Bytes} (hcapacity : 8 ≤ capacity)
    (h : segment capacity bytes = ⟨[], 0, bytes⟩) : bytes.length < capacity := by
  rw [segment] at h
  split at h
  next hshort => omega
  next =>
    split at h
    next hyes =>
      simp only at h
      split at h
      next hpart => exact Nat.lt_of_lt_of_le hpart hyes.2.2
      next => simp [Segmentation.after] at h
    next =>
      have hskipped := congrArg Segmentation.skipped h
      simp only [Segmentation.after] at hskipped
      omega

/-- Draining changes the capacity as little as cutting does, and leaves no more than there was. -/
theorem drain_rest (r : Reassembly) :
    r.drain.rest.capacity = r.capacity ∧ r.drain.rest.size ≤ r.size := by
  induction r using drain.induct with
  | case1 r rest hcut =>
      rw [drain_of_cut_none hcut]
      rcases r.cut_cases with ⟨n, -, -, hcut'⟩ | ⟨hcut', -⟩
      · cases hcut.symm.trans hcut'
      · cases hcut.symm.trans hcut'
        exact ⟨rfl, r.size_skipGarbage_le⟩
  | case2 r e rest hcut =>
      rw [drain_of_cut_error hcut]
      exact ⟨(segment_of_cut_some hcut).1, Nat.le_of_lt (size_cut_lt hcut)⟩
  | case3 r msg rest hcut ih =>
      rw [drain_of_cut_ok hcut]
      exact ⟨ih.1.trans (segment_of_cut_some hcut).1,
        Nat.le_trans ih.2 (Nat.le_of_lt (size_cut_lt hcut))⟩

/-- **Draining leaves room for another byte**, also when it stops at a frame that does not
decode. -/
theorem size_rest_drain_lt {r : Reassembly} (hcapacity : 8 ≤ r.capacity)
    (hsize : r.size ≤ r.capacity) : r.drain.rest.size < r.capacity := by
  induction r using drain.induct with
  | case1 r rest hcut =>
      rw [drain_of_cut_none hcut]
      rcases r.cut_cases with ⟨n, -, -, hcut'⟩ | ⟨hcut', hdone⟩
      · cases hcut.symm.trans hcut'
      · cases hcut.symm.trans hcut'
        exact length_lt_of_segment_eq hcapacity hdone
  | case2 r e rest hcut =>
      -- The frame that does not decode is used up, and it had at least one byte.
      rw [drain_of_cut_error hcut]
      exact Nat.lt_of_lt_of_le (size_cut_lt hcut) hsize
  | case3 r msg rest hcut ih =>
      have hkept : rest.capacity = r.capacity := (segment_of_cut_some hcut).1
      have hless := size_cut_lt hcut
      rw [drain_of_cut_ok hcut]
      rw [hkept] at ih
      exact ih hcapacity (by omega)

end Reassembly

/-! ### Rounds -/

/-- A reassembly, with what is remembered of the length of the frame at its head. -/
structure Scan where
  reassembly : Reassembly
  target : Option Nat
deriving DecidableEq, Repr

/-- How a round of a search ends. -/
inductive Round where
  | again (scan : Scan)
  /-- The search is over, with a frame or for want of bytes. -/
  | settled (answer : Option (Except CodecError Message)) (scan : Scan)

namespace Scan

/-- Cuts off the frame at the head, whose length is known, if it is complete. -/
def settle (r : Reassembly) (length : Nat) : Round :=
  if r.size < length then .settled none ⟨r, some length⟩
  else
    .settled (some (Message.decode (r.held.take length)))
      ⟨{ r with held := r.held.drop length }, none⟩

/-- One round of a search. -/
def round (scan : Scan) : Round :=
  let r := scan.reassembly
  match scan.target with
  | some length => settle r length
  | none =>
    if headerMissing r.held then .settled none scan
    else
      match frameStart r.capacity r.held with
      | some length => settle r length
      | none => .again ⟨{ r with held := r.held.drop 1, skipped := r.skipped + 1 }, none⟩

/-- A search for one frame, with the scans at which its rounds begin. -/
inductive Ends : Scan → List Scan → Option (Except CodecError Message) → Scan → Prop where
  | settled {scan last : Scan} {answer : Option (Except CodecError Message)}
      (h : scan.round = .settled answer last) : Ends scan [scan] answer last
  | again {scan next last : Scan} {visited : List Scan}
      {answer : Option (Except CodecError Message)} (h : scan.round = .again next)
      (hmore : Ends next visited answer last) : Ends scan (scan :: visited) answer last

/-- Searches until one finds no frame, or one that does not decode. -/
inductive Drains : Scan → List Scan → List Message → Option CodecError → Scan → Prop where
  | dry {scan last : Scan} {visited : List Scan} (h : Ends scan visited none last) :
      Drains scan visited [] none last
  | garbled {scan last : Scan} {visited : List Scan} {e : CodecError}
      (h : Ends scan visited (some (.error e)) last) : Drains scan visited [] (some e) last
  | frame {scan next last : Scan} {visited visited' : List Scan} {msg : Message}
      {msgs : List Message} {failure : Option CodecError}
      (h : Ends scan visited (some (.ok msg)) next)
      (hmore : Drains next visited' msgs failure last) :
      Drains scan (visited ++ visited') (msg :: msgs) failure last

section Unique

variable {scan last last' : Scan} {visited visited' : List Scan}
  {answer answer' : Option (Except CodecError Message)} {msgs msgs' : List Message}
  {failure failure' : Option CodecError}

/-- A search ends in one way only. -/
theorem Ends.unique (h : Ends scan visited answer last) (h' : Ends scan visited' answer' last') :
    answer = answer' ∧ last = last' := by
  induction h generalizing visited' answer' last' with
  | settled hround =>
      cases h' with
      | settled hround' => cases hround.symm.trans hround'; exact ⟨rfl, rfl⟩
      | again hround' => cases hround.symm.trans hround'
  | again hround _ ih =>
      cases h' with
      | settled hround' => cases hround.symm.trans hround'
      | again hround' hmore' =>
          cases hround.symm.trans hround'
          exact ih hmore'

theorem Drains.unique (h : Drains scan visited msgs failure last)
    (h' : Drains scan visited' msgs' failure' last') :
    msgs = msgs' ∧ failure = failure' ∧ last = last' := by
  induction h generalizing visited' msgs' failure' last' with
  | dry hend =>
      cases h' with
      | dry hend' => exact ⟨rfl, rfl, (hend.unique hend').2⟩
      | garbled hend' => cases (hend.unique hend').1
      | frame hend' => cases (hend.unique hend').1
  | garbled hend =>
      cases h' with
      | dry hend' => cases (hend.unique hend').1
      | garbled hend' =>
          obtain ⟨heq, rfl⟩ := hend.unique hend'
          cases heq
          exact ⟨rfl, rfl, rfl⟩
      | frame hend' => cases (hend.unique hend').1
  | frame hend _ ih =>
      cases h' with
      | dry hend' => cases (hend.unique hend').1
      | garbled hend' => cases (hend.unique hend').1
      | frame hend' hmore' =>
          obtain ⟨heq, rfl⟩ := hend.unique hend'
          cases heq
          obtain ⟨rfl, rfl, rfl⟩ := ih hmore'
          exact ⟨rfl, rfl, rfl⟩

end Unique

/-! ### What is remembered -/

/-- No more is held than there is room for in all, and a length that is remembered is the one
that stands at the head. -/
structure Sound (capacity : Nat) (scan : Scan) : Prop where
  capacity_eq : scan.reassembly.capacity = capacity
  size_le : scan.reassembly.size ≤ capacity
  target : ∀ n, scan.target = some n → scan.reassembly.headLength = some n

/-- Where no length is remembered, none can be wrong. -/
theorem Sound.of_reassembly {capacity : Nat} {r : Reassembly} (hcapacity : r.capacity = capacity)
    (hsize : r.size ≤ capacity) : Sound capacity ⟨r, none⟩ :=
  ⟨hcapacity, hsize, nofun⟩

/-- A length that is remembered is that of a frame that can become complete. -/
theorem Sound.bounds {capacity n : Nat} {scan : Scan} (h : scan.Sound capacity)
    (hn : scan.target = some n) : minFrameLength ≤ n ∧ n ≤ capacity :=
  h.capacity_eq ▸ Reassembly.headLength_bounds (h.target n hn)

/-- Bytes that there is room for leave what is remembered true. -/
theorem Sound.append {capacity : Nat} {scan : Scan} (h : scan.Sound capacity) {more : Bytes}
    (hfits : more.length ≤ scan.reassembly.room) :
    Sound capacity ⟨scan.reassembly.append more, scan.target⟩ := by
  refine ⟨h.capacity_eq, ?_, fun n hn => Reassembly.headLength_append (h.target n hn) more⟩
  have hsize := h.size_le
  have hcapacity := h.capacity_eq
  simp only [Reassembly.room, Reassembly.append, Reassembly.size, List.length_append] at *
  omega

/-- A scan after a search: a length is remembered of a frame that is not complete. -/
def afterCut (r : Reassembly) : Scan :=
  ⟨r.cut.2, match r.cut.1 with
    | none => r.cut.2.headLength
    | some _ => none⟩

/-- A scan after searches. -/
def afterDrain (r : Reassembly) : Scan :=
  ⟨r.drain.rest, match r.drain.failure with
    | none => r.drain.rest.headLength
    | some _ => none⟩

/-- Where the length at the head is known, or comes to be, a round settles the search. -/
theorem settle_eq {r : Reassembly} {n : Nat} (h : r.headLength = some n) :
    settle r n = .settled r.cut.1 (afterCut r) := by
  rw [settle, afterCut, Reassembly.cut_of_headLength h]
  split
  · rw [← h]
  · rfl

/-- A round settles the search, or drops a byte that starts no frame. -/
theorem round_cases {capacity : Nat} {scan : Scan} (h : scan.Sound capacity) :
    (garbage capacity scan.reassembly.held = 0 ∧
      scan.round = .settled scan.reassembly.cut.1 (afterCut scan.reassembly)) ∨
    ∃ byte rest, scan.reassembly.held = byte :: rest ∧
      garbage capacity scan.reassembly.held = garbage capacity rest + 1 ∧
      scan.round = .again ⟨⟨capacity, rest, scan.reassembly.skipped + 1⟩, none⟩ ∧
      scan.reassembly.cut = Reassembly.cut ⟨capacity, rest, scan.reassembly.skipped + 1⟩ := by
  obtain ⟨r, target⟩ := scan
  obtain rfl : r.capacity = capacity := h.capacity_eq
  cases target with
  | some n =>
      have hhead : r.headLength = some n := h.target n rfl
      have hgarbage := Reassembly.garbage_of_frameStart (Reassembly.headLength_eq_some hhead).2
      exact .inl ⟨hgarbage, settle_eq hhead⟩
  | none =>
      cases hmissing : headerMissing r.held with
      | true =>
          refine .inl ⟨Reassembly.garbage_of_headerMissing hmissing _, ?_⟩
          simp [round, hmissing, afterCut, Reassembly.cut_of_headerMissing hmissing,
            Reassembly.headLength]
      | false =>
          cases hstart : frameStart r.capacity r.held with
          | some n =>
              have hhead : r.headLength = some n := by
                simp [Reassembly.headLength, hmissing, hstart]
              refine .inl ⟨Reassembly.garbage_of_frameStart hstart, ?_⟩
              simpa [round, hmissing, hstart] using settle_eq hhead
          | none =>
              cases hheld : r.held with
              | nil => simp [hheld, headerMissing] at hmissing
              | cons byte rest =>
                  obtain ⟨hgarbage, hcut⟩ := Reassembly.cut_of_garbage hheld hmissing hstart
                  refine .inr ⟨byte, rest, rfl, hheld ▸ hgarbage, ?_, hcut⟩
                  rw [hheld] at hmissing hstart
                  simp [round, hheld, hmissing, hstart]

/-- **A search comes to what `cut` says**, with a round for each byte of garbage and one more. -/
theorem ends_cut {capacity : Nat} {scan : Scan} (h : scan.Sound capacity) :
    ∃ visited, Ends scan visited scan.reassembly.cut.1 (afterCut scan.reassembly) ∧
      visited.length = garbage capacity scan.reassembly.held + 1 ∧
      ∀ s ∈ visited, s.Sound capacity := by
  induction hsize : scan.reassembly.held generalizing scan with
  | nil =>
      rcases round_cases h with ⟨hgarbage, hround⟩ | ⟨byte, rest, hheld, -⟩
      · exact ⟨[scan], .settled hround, by simp [garbage], by simpa using h⟩
      · cases hsize.symm.trans hheld
  | cons byte rest ih =>
      rcases round_cases h with ⟨hgarbage, hround⟩ | ⟨_, _, hheld, hgarbage, hround, hcut⟩
      · exact ⟨[scan], .settled hround, by simp [← hsize, hgarbage], by simpa using h⟩
      · -- The byte at the head is dropped; the search goes on with the bytes behind it.
        cases hsize.symm.trans hheld
        have hnext : Sound capacity ⟨⟨capacity, rest, scan.reassembly.skipped + 1⟩, none⟩ := by
          have hfull := h.size_le
          simp only [Reassembly.size, hsize, List.length_cons] at hfull
          exact .of_reassembly rfl (Nat.le_of_succ_le hfull)
        obtain ⟨visited, hends, hlength, hvisited⟩ := ih hnext rfl
        refine ⟨scan :: visited, .again hround ?_, ?_, ?_⟩
        · rwa [afterCut, hcut]
        · rw [List.length_cons, hlength, ← hsize, hgarbage]
        · simpa using ⟨h, hvisited⟩

theorem sound_afterDrain {capacity : Nat} {r : Reassembly} {target : Option Nat}
    (h : Sound capacity ⟨r, target⟩) : (afterDrain r).Sound capacity := by
  obtain ⟨hcapacity, hsize⟩ := r.drain_rest
  refine ⟨hcapacity.trans h.capacity_eq, Nat.le_trans hsize h.size_le, fun n hn => ?_⟩
  unfold afterDrain at hn
  split at hn
  · exact hn
  · cases hn

/-- **Searches come to what `drain` says**, with no more rounds in all than there are bytes, and
one. -/
theorem drains_drain {capacity : Nat} {r : Reassembly} {target : Option Nat}
    (h : Sound capacity ⟨r, target⟩) :
    ∃ visited, Drains ⟨r, target⟩ visited r.drain.frames r.drain.failure (afterDrain r) ∧
      visited.length ≤ r.size + 1 ∧ ∀ s ∈ visited, s.Sound capacity := by
  induction r using Reassembly.drain.induct generalizing target with
  | case1 r rest hcut =>
      obtain ⟨visited, hends, hlength, hvisited⟩ := ends_cut h
      have hlast : afterDrain r = afterCut r := by
        simp [afterDrain, afterCut, Reassembly.drain_of_cut_none hcut, hcut]
      rw [hcut] at hends
      refine ⟨visited, ?_, hlength ▸ Nat.succ_le_succ (garbage_le ..), hvisited⟩
      simpa only [Reassembly.drain_of_cut_none hcut, hlast] using Drains.dry hends
  | case2 r e rest hcut =>
      obtain ⟨visited, hends, hlength, hvisited⟩ := ends_cut h
      have hlast : afterDrain r = afterCut r := by
        simp [afterDrain, afterCut, Reassembly.drain_of_cut_error hcut, hcut]
      rw [hcut] at hends
      refine ⟨visited, ?_, hlength ▸ Nat.succ_le_succ (garbage_le ..), hvisited⟩
      simpa only [Reassembly.drain_of_cut_error hcut, hlast] using Drains.garbled hends
  | case3 r msg rest hcut ih =>
      obtain ⟨visited, hends, hlength, hvisited⟩ := ends_cut h
      obtain rfl : r.capacity = capacity := h.capacity_eq
      have hkept : rest.capacity = r.capacity := (Reassembly.segment_of_cut_some hcut).1
      have hless := Reassembly.garbage_add_size_cut_lt hcut
      have hsize : r.size ≤ r.capacity := h.size_le
      have hnext : Sound r.capacity ⟨rest, none⟩ := by
        refine .of_reassembly hkept ?_
        omega
      obtain ⟨visited', hdrains, hlength', hvisited'⟩ := ih hnext
      have hlast : afterDrain r = afterDrain rest := by
        simp [afterDrain, Reassembly.drain_of_cut_ok hcut]
      have hcutoff : afterCut r = ⟨rest, none⟩ := by simp [afterCut, hcut]
      rw [hcutoff, hcut] at hends
      refine ⟨visited ++ visited', ?_, ?_, ?_⟩
      · simpa only [Reassembly.drain_of_cut_ok hcut, hlast] using Drains.frame hends hdrains
      · rw [List.length_append, hlength]
        simp only
        omega
      · simpa [or_imp, forall_and] using ⟨hvisited, hvisited'⟩

end Scan
end Rendezvous
