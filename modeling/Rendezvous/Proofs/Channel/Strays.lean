import Rendezvous.Proofs.Channel.Reading

/-!
# Rendezvous.Proofs.Channel.Strays

**How much of a byte stream is garbage.** `strays` counts the bytes of a stream that start no
frame, up to the first frame that does not decode: with that frame a stream is lost, and what
is behind it is never looked at. It is said of the bytes alone, however they are read.

* `strays_append`: as long as every frame decodes, what is dropped of more bytes is dropped
  of what is left over followed by them.
* `skipped_drain`: what draining a reassembly adds to its count is the strays of what it
  holds, also when a frame does not decode.
* `receive_skipped`: so after a read of a stream, also one that fails, the count of its
  reassembly is the strays of all bytes so far.
-/

namespace Rendezvous

/-- How many bytes are dropped as garbage when bytes are cut up, up to the first frame that
does not decode. -/
def strays (capacity : Nat) (bytes : Bytes) : Nat :=
  if bytes.length < 8 then 0
  else if announcesFrame capacity bytes then
    let length := announcedLength bytes
    if bytes.length < length then 0
    else
      match Message.decode (bytes.take length) with
      | .ok _ => strays capacity (bytes.drop length)
      | .error _ => 0
  else
    strays capacity (bytes.drop 1) + 1
termination_by bytes.length
decreasing_by
  all_goals simp_all only [announcesFrame, List.length_drop]; omega

/-- Does every frame decode that bytes are cut into? -/
def AllDecode (capacity : Nat) (bytes : Bytes) : Prop :=
  ∀ e, .error e ∉ (segment capacity bytes).emitted

variable {capacity : Nat} {bytes : Bytes}

/-- A frame at the head decodes, and so do those behind it. -/
theorem AllDecode.cut (h : AllDecode capacity bytes) (hlong : ¬ bytes.length < 8)
    (hyes : announcesFrame capacity bytes) (hwhole : ¬ bytes.length < announcedLength bytes) :
    (∃ msg, Message.decode (bytes.take (announcedLength bytes)) = .ok msg) ∧
      AllDecode capacity (bytes.drop (announcedLength bytes)) := by
  rw [AllDecode, segment, if_neg hlong, if_pos hyes] at h
  simp only at h
  rw [if_neg hwhole] at h
  refine ⟨?_, fun e he => h e (List.mem_cons_of_mem _ he)⟩
  cases hframe : Message.decode (bytes.take (announcedLength bytes)) with
  | ok msg => exact ⟨msg, rfl⟩
  | error e => exact absurd (List.mem_cons.2 (.inl hframe.symm)) (h e)

/-- A byte that starts no frame leaves the frames behind it as they are. -/
theorem AllDecode.tail (h : AllDecode capacity bytes) (hlong : ¬ bytes.length < 8)
    (hno : ¬ announcesFrame capacity bytes) : AllDecode capacity (bytes.drop 1) := by
  rw [AllDecode, segment, if_neg hlong, if_neg hno] at h
  exact h

theorem strays_of_cut {msg : Message} (hlong : ¬ bytes.length < 8)
    (hyes : announcesFrame capacity bytes) (hwhole : ¬ bytes.length < announcedLength bytes)
    (hframe : Message.decode (bytes.take (announcedLength bytes)) = .ok msg) :
    strays capacity bytes = strays capacity (bytes.drop (announcedLength bytes)) := by
  rw [strays, if_neg hlong, if_pos hyes]
  simp only
  rw [if_neg hwhole, hframe]

/-- Where every frame decodes, the strays are the bytes dropped in all. -/
theorem strays_eq_skipped (h : AllDecode capacity bytes) :
    strays capacity bytes = (segment capacity bytes).skipped := by
  induction bytes using segment.induct capacity with
  | case1 bytes hshort => rw [strays, if_pos hshort, segment, if_pos hshort]
  | case2 bytes hlong hyes length hpart =>
      rw [strays, if_neg hlong, if_pos hyes, segment, if_neg hlong, if_pos hyes]
      simp only
      rw [if_pos hpart, if_pos hpart]
  | case3 bytes hlong hyes length hwhole ih =>
      obtain ⟨⟨msg, hframe⟩, hrest⟩ := h.cut hlong hyes hwhole
      rw [strays_of_cut hlong hyes hwhole hframe, ih hrest, segment.eq_1 capacity bytes,
        if_neg hlong, if_pos hyes]
      simp only
      rw [if_neg hwhole]
      exact (Nat.zero_add _).symm
  | case4 bytes hlong hno ih =>
      rw [strays, if_neg hlong, if_neg hno, ih (h.tail hlong hno), segment.eq_1 capacity bytes,
        if_neg hlong, if_neg hno]
      exact Nat.add_comm _ _

/-- As long as every frame decodes, more bytes are cut up behind what is left over. -/
theorem strays_append (h : AllDecode capacity bytes) (more : Bytes) :
    strays capacity (bytes ++ more) =
      (segment capacity bytes).skipped + strays capacity ((segment capacity bytes).rest ++ more) := by
  induction bytes using segment.induct capacity with
  | case1 bytes hshort =>
      rw [segment, if_pos hshort]
      exact (Nat.zero_add _).symm
  | case2 bytes hlong hyes length hpart =>
      rw [segment, if_neg hlong, if_pos hyes]
      simp only
      rw [if_pos hpart]
      exact (Nat.zero_add _).symm
  | case3 bytes hlong hyes length hwhole ih =>
      -- What is behind a whole frame does not change how it is cut off.
      obtain ⟨⟨msg, hframe⟩, hrest⟩ := h.cut hlong hyes hwhole
      obtain ⟨hyes', hlength⟩ := announcesFrame_append capacity (Nat.not_lt.1 hlong) more
      have hfits : announcedLength bytes ≤ bytes.length := Nat.not_lt.1 hwhole
      have hlong' : ¬ (bytes ++ more).length < 8 := by
        rw [List.length_append]
        omega
      have hwhole' : ¬ (bytes ++ more).length < announcedLength (bytes ++ more) := by
        rw [List.length_append, hlength]
        omega
      have hframe' : Message.decode ((bytes ++ more).take (announcedLength (bytes ++ more))) =
          .ok msg := by
        rw [hlength, List.take_append_of_le_length hfits, hframe]
      rw [strays_of_cut hlong' (hyes'.2 hyes) hwhole' hframe', hlength,
        List.drop_append_of_le_length hfits, ih hrest, segment.eq_1 capacity bytes, if_neg hlong,
        if_pos hyes]
      simp only
      rw [if_neg hwhole]
      exact congrArg (· + _) (Nat.zero_add _).symm
  | case4 bytes hlong hno ih =>
      obtain ⟨hno', -⟩ := announcesFrame_append capacity (Nat.not_lt.1 hlong) more
      have hlong' : ¬ (bytes ++ more).length < 8 := by
        rw [List.length_append]
        omega
      rw [strays, if_neg hlong', if_neg (mt hno'.1 hno),
        List.drop_append_of_le_length (by omega), ih (h.tail hlong hno),
        segment.eq_1 capacity bytes, if_neg hlong, if_neg hno, Nat.add_right_comm]
      exact congrArg (· + _) (Nat.add_comm _ _)

/-- As long as every frame decodes, strays remain strays whatever follows. -/
theorem strays_le_append (h : AllDecode capacity bytes) (more : Bytes) :
    strays capacity bytes ≤ strays capacity (bytes ++ more) := by
  rw [strays_append h, strays_eq_skipped h]
  exact Nat.le_add_right _ _

/-- Garbage at the head is all strays. -/
theorem strays_garbage (capacity : Nat) (bytes : Bytes) :
    strays capacity bytes =
      garbage capacity bytes + strays capacity (bytes.drop (garbage capacity bytes)) := by
  induction bytes with
  | nil => simp [garbage]
  | cons byte rest ih =>
      unfold garbage
      split
      · simp
      · next hlong =>
        rw [headerMissing_iff] at hlong
        split
        · simp
        · next hstart =>
          have hno : ¬ announcesFrame capacity (byte :: rest) := fun h =>
            hstart (Option.isSome_iff_exists.2
              ⟨_, (frameStart_eq_some_iff (by omega) []).2 ⟨by simpa using h, rfl⟩⟩)
          rw [strays, if_neg hlong, if_neg hno]
          simp only [List.drop_succ_cons, List.drop_zero]
          omega

namespace Reassembly

/-- What is dropped before the first frame is cut off, or before it is clear that there is
none. -/
theorem strays_of_cut_none {r rest : Reassembly} (h : r.cut = (none, rest)) :
    strays r.capacity r.held = garbage r.capacity r.held := by
  obtain ⟨hsegment, -⟩ := segment_of_cut_none h
  have hall : AllDecode r.capacity r.held := by
    intro e he
    rw [hsegment] at he
    cases he
  rw [strays_eq_skipped hall, hsegment]

theorem strays_of_cut_some {r rest : Reassembly} {answer : Except CodecError Message}
    (h : r.cut = (some answer, rest)) :
    strays r.capacity r.held = garbage r.capacity r.held +
      if answer.isOk then strays r.capacity rest.held else 0 := by
  rw [strays_garbage]
  rcases r.cut_cases with ⟨n, hhead, hn, hcut⟩ | ⟨hcut, -⟩
  · obtain ⟨hlong, hstart⟩ := headLength_eq_some hhead
    obtain ⟨hyes, hlength⟩ := (frameStart_eq_some_iff hlong []).1 hstart
    rw [List.append_nil] at hyes hlength
    cases h.symm.trans hcut
    have hwhole : ¬ r.skipGarbage.held.length < n := Nat.not_lt.2 hn
    refine congrArg (garbage r.capacity r.held + ·) ?_
    change strays r.skipGarbage.capacity r.skipGarbage.held = _
    rw [strays, if_neg (Nat.not_lt.2 hlong), if_pos hyes, hlength]
    simp only
    rw [if_neg hwhole]
    cases Message.decode (r.skipGarbage.held.take n) <;> rfl
  · cases h.symm.trans hcut

/-- Draining counts the strays of what is held. -/
theorem skipped_drain (r : Reassembly) :
    r.drain.rest.skipped = r.skipped + strays r.capacity r.held := by
  induction r using drain.induct with
  | case1 r rest hcut =>
      rw [drain_of_cut_none hcut, strays_of_cut_none hcut, (segment_of_cut_none hcut).2]
  | case2 r e rest hcut =>
      rw [drain_of_cut_error hcut, strays_of_cut_some hcut]
      exact (segment_of_cut_some hcut).2.1
  | case3 r msg rest hcut ih =>
      obtain ⟨hcapacity, hskipped, -⟩ := segment_of_cut_some hcut
      rw [drain_of_cut_ok hcut, strays_of_cut_some hcut]
      change rest.drain.rest.skipped = r.skipped + (_ + strays r.capacity rest.held)
      rw [ih, hskipped, hcapacity, Nat.add_assoc]

end Reassembly

/-! ### One read -/

namespace FramedStream

/-- The bytes so far have been cut up as far as they go, and every frame of them decoded. -/
structure CutUp (stream : FramedStream) (bytes : Bytes) : Prop where
  held : stream.reassembly = .leftOver streamCapacity bytes
  decode : AllDecode streamCapacity bytes

theorem CutUp.skipped {stream : FramedStream} {bytes : Bytes} (h : stream.CutUp bytes) :
    stream.skipped = strays streamCapacity bytes := by
  rw [FramedStream.skipped, h.held, strays_eq_skipped h.decode]
  rfl

/-- Before any bytes. -/
theorem cutUp_ofStream (id : StreamId) : (FramedStream.ofStream id).CutUp [] := by
  have hempty : segment streamCapacity [] = ⟨[], 0, []⟩ := segment_of_headerMissing rfl _
  refine ⟨?_, fun e he => ?_⟩
  · rw [Reassembly.leftOver, hempty]
    rfl
  · rw [hempty] at he
    cases he

/-- A read of a stream, also one that fails, counts the strays of all bytes so far. -/
theorem receive_skipped {stream : FramedStream} {bytes : Bytes} (h : stream.CutUp bytes)
    (host : Host) :
    (stream.receive host).stream.skipped =
      strays streamCapacity (bytes ++ stream.bytesIn host) := by
  unfold receive
  split
  next heq => rw [bytesIn, heq]; simpa [Except.toOption] using h.skipped
  next heq => rw [bytesIn, heq]; simpa [Except.toOption] using h.skipped
  next heq => rw [bytesIn, heq]; simpa [Except.toOption] using h.skipped
  next more _ _ heq =>
    rw [bytesIn, heq]
    change (stream.reassembly.append more).drain.rest.skipped =
      strays streamCapacity (bytes ++ more)
    rw [Reassembly.skipped_drain, h.held, strays_append h.decode]
    rfl

/-- Unless a read fails, all bytes so far have been cut up after it. -/
theorem receive_cutUp {stream : FramedStream} {bytes : Bytes} (h : stream.CutUp bytes)
    {host : Host} (hfine : ∀ e, (stream.receive host).result ≠ .error e) :
    (stream.receive host).stream.CutUp (bytes ++ stream.bytesIn host) := by
  rcases receive_leftOver h.held host with ⟨e, hfailed⟩ | ⟨hheld, hemitted⟩
  · exact absurd hfailed (hfine e)
  · refine ⟨hheld, fun e he => ?_⟩
    rw [hemitted, List.mem_append] at he
    exact he.elim (h.decode e) fun hnew => by simp at hnew

end FramedStream
end Rendezvous
