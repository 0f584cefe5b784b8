import Rendezvous.Channel.Stream
import Rendezvous.Proofs.Channel.Segmentation
import Rendezvous.Proofs.Host.Arrived

/-!
# Rendezvous.Proofs.Channel.Reading

**What a stream makes of the bytes that have arrived.** Between two reads a stream holds
what segmenting all bytes so far leaves over (`Reassembly.leftOver`), and nothing else of
them is needed: `segment_append` cuts up more bytes by cutting up what is left over followed
by them.

* `drain_eq`: draining a reassembly segments what it holds, unless a frame does not decode.
* `receive_leftOver`: so a read that does not fail answers the frames that it completes, and
  leaves the stream holding what is left over of all bytes.
-/

namespace Rendezvous

/-! ### Segmenting in two parts -/

theorem announcesFrame_append (capacity : Nat) {bytes : Bytes} (h : 8 ≤ bytes.length)
    (more : Bytes) :
    (announcesFrame capacity (bytes ++ more) ↔ announcesFrame capacity bytes) ∧
      announcedLength (bytes ++ more) = announcedLength bytes := by
  have hlength : announcedLength (bytes ++ more) = announcedLength bytes := by
    rw [announcedLength, List.drop_append_of_le_length (by omega),
      List.take_append_of_le_length (by simp; omega)]
    rfl
  rw [announcesFrame, hlength, List.take_append_of_le_length (by omega)]
  exact ⟨.rfl, rfl⟩

/-- Bytes can be cut up in two parts: what the first part leaves over goes before the second. -/
theorem segment_append (capacity : Nat) (bytes more : Bytes) :
    segment capacity (bytes ++ more) =
      (segment capacity ((segment capacity bytes).rest ++ more)).after
        (segment capacity bytes).frames (segment capacity bytes).skipped := by
  induction bytes using segment.induct capacity with
  | case1 bytes hshort =>
      rw [segment.eq_1 capacity bytes, if_pos hshort, Segmentation.after_nil_zero]
  | case2 bytes hlong hyes length hpart =>
      rw [segment.eq_1 capacity bytes, if_neg hlong, if_pos hyes]
      simp only
      rw [if_pos hpart, Segmentation.after_nil_zero]
  | case3 bytes hlong hyes length hwhole ih =>
      obtain ⟨hyes', hlength⟩ := announcesFrame_append capacity (Nat.not_lt.1 hlong) more
      have hlong' : ¬ (bytes ++ more).length < 8 := by
        rw [List.length_append]
        omega
      have hwhole' : ¬ (bytes ++ more).length < announcedLength bytes := by
        rw [List.length_append]
        omega
      have hfits : announcedLength bytes ≤ bytes.length := Nat.not_lt.1 hwhole
      rw [segment.eq_1 capacity (bytes ++ more), if_neg hlong', if_pos (hyes'.2 hyes), hlength,
        segment.eq_1 capacity bytes, if_neg hlong, if_pos hyes]
      simp only
      rw [if_neg hwhole', if_neg hwhole, List.drop_append_of_le_length hfits,
        List.take_append_of_le_length hfits, ih, Segmentation.after_after]
      rfl
  | case4 bytes hlong hno ih =>
      obtain ⟨hno', -⟩ := announcesFrame_append capacity (Nat.not_lt.1 hlong) more
      have hlong' : ¬ (bytes ++ more).length < 8 := by
        rw [List.length_append]
        omega
      rw [segment.eq_1 capacity (bytes ++ more), if_neg hlong', if_neg (mt hno'.1 hno),
        segment.eq_1 capacity bytes, if_neg hlong, if_neg hno,
        List.drop_append_of_le_length (by omega), ih, Segmentation.after_after]
      rfl

/-- What was cut off stays cut off, whatever comes next. -/
theorem emitted_append (capacity : Nat) (bytes more : Bytes) :
    (segment capacity (bytes ++ more)).emitted =
      (segment capacity bytes).emitted ++
        (segment capacity ((segment capacity bytes).rest ++ more)).emitted := by
  rw [segment_append]
  exact List.map_append

/-! ### Draining -/

namespace Reassembly

/-- What a reassembly holds when it has cut up these bytes as far as it could. -/
def leftOver (capacity : Nat) (bytes : Bytes) : Reassembly :=
  ⟨capacity, (segment capacity bytes).rest, (segment capacity bytes).skipped⟩

/-- Cutting up what is held goes past the garbage at its head. -/
theorem segment_held (r : Reassembly) :
    segment r.capacity r.held =
      (segment r.capacity r.skipGarbage.held).after [] (garbage r.capacity r.held) := by
  have hgarbage := segment_garbage r.capacity r.held []
  rwa [List.append_nil, List.append_nil] at hgarbage

/-- Where nothing is cut off, nothing can be. -/
theorem segment_of_cut_none {r rest : Reassembly} (h : r.cut = (none, rest)) :
    segment r.capacity r.held = ⟨[], garbage r.capacity r.held, rest.held⟩ ∧
      rest = ⟨r.capacity, rest.held, r.skipped + garbage r.capacity r.held⟩ := by
  rcases r.cut_cases with ⟨n, -, -, hcut⟩ | ⟨hcut, hdone⟩
  · cases h.symm.trans hcut
  · obtain rfl : rest = r.skipGarbage := congrArg Prod.snd (h.symm.trans hcut)
    rw [r.segment_held, hdone]
    exact ⟨rfl, rfl⟩

/-- Cutting a frame off leaves the rest to be cut up. -/
theorem segment_of_cut_some {r rest : Reassembly} {answer : Except CodecError Message}
    (h : r.cut = (some answer, rest)) :
    rest.capacity = r.capacity ∧
      rest.skipped = r.skipped + garbage r.capacity r.held ∧
      ∃ frame, Message.decode frame = answer ∧
        segment r.capacity r.held =
          (segment r.capacity rest.held).after [frame] (garbage r.capacity r.held) := by
  rcases r.cut_cases with ⟨n, hhead, hn, hcut⟩ | ⟨hcut, -⟩
  · obtain ⟨hlong, hstart⟩ := headLength_eq_some hhead
    cases h.symm.trans hcut
    refine ⟨rfl, rfl, _, rfl, ?_⟩
    have hframe : segment r.capacity r.skipGarbage.held =
        (segment r.capacity (r.skipGarbage.held.drop n)).after [r.skipGarbage.held.take n] 0 := by
      have hmore := segment_frame hlong hstart hn []
      rwa [List.append_nil, List.append_nil] at hmore
    rw [r.segment_held, hframe, Segmentation.after_after]
    rfl
  · cases h.symm.trans hcut

theorem drain_of_cut_none {r rest : Reassembly} (h : r.cut = (none, rest)) :
    r.drain = ⟨[], none, rest⟩ := by
  rw [drain]
  split <;> simp_all

theorem drain_of_cut_error {r rest : Reassembly} {e : CodecError}
    (h : r.cut = (some (.error e), rest)) : r.drain = ⟨[], some e, rest⟩ := by
  rw [drain]
  split <;> simp_all

theorem drain_of_cut_ok {r rest : Reassembly} {msg : Message}
    (h : r.cut = (some (.ok msg), rest)) :
    r.drain = { rest.drain with frames := msg :: rest.drain.frames } := by
  rw [drain]
  split <;> simp_all

/-- Unless a frame does not decode, draining cuts up all that is held. -/
theorem drain_eq {r : Reassembly} (h : r.drain.failure = none) :
    (segment r.capacity r.held).emitted = r.drain.frames.map .ok ∧
      r.drain.rest =
        ⟨r.capacity, (segment r.capacity r.held).rest,
          r.skipped + (segment r.capacity r.held).skipped⟩ := by
  induction r using drain.induct with
  | case1 r rest hcut =>
      obtain ⟨hsegment, hrest⟩ := segment_of_cut_none hcut
      rw [drain_of_cut_none hcut, hsegment]
      exact ⟨rfl, hrest⟩
  | case2 r e rest hcut =>
      rw [drain_of_cut_error hcut] at h
      cases h
  | case3 r msg rest hcut ih =>
      obtain ⟨hcapacity, hskipped, frame, hframe, hsegment⟩ := segment_of_cut_some hcut
      rw [drain_of_cut_ok hcut] at h ⊢
      obtain ⟨hemitted, hrest⟩ := ih h
      rw [hcapacity] at hemitted hrest
      rw [hsegment]
      refine ⟨?_, ?_⟩
      · simpa [Segmentation.emitted, Segmentation.after, hframe] using hemitted
      · rw [hrest, hskipped, Nat.add_assoc]
        rfl

/-- More bytes on top of what is left over: draining them takes the cutting up on, unless a
frame does not decode. -/
theorem drain_leftOver {capacity : Nat} {bytes more : Bytes}
    (h : ((leftOver capacity bytes).append more).drain.failure = none) :
    (segment capacity (bytes ++ more)).emitted =
        (segment capacity bytes).emitted ++
          ((leftOver capacity bytes).append more).drain.frames.map .ok ∧
      ((leftOver capacity bytes).append more).drain.rest = leftOver capacity (bytes ++ more) := by
  obtain ⟨hemitted, hrest⟩ := drain_eq h
  refine ⟨(emitted_append capacity bytes more).trans (congrArg _ hemitted), ?_⟩
  rw [hrest, leftOver, leftOver, segment_append capacity bytes more]
  rfl

end Reassembly

/-! ### One read -/

namespace FramedStream

/-- What a read comes to whose stream holds what is left over of the bytes so far. It fails
or it completes frames; a dry read gets no bytes. -/
theorem receive_leftOver {stream : FramedStream} {bytes : Bytes}
    (hheld : stream.reassembly = .leftOver streamCapacity bytes) (host : Host) :
    (∃ e, (stream.receive host).result = .error e) ∨
      ((stream.receive host).stream.reassembly =
          .leftOver streamCapacity (bytes ++ stream.bytesIn host) ∧
        (segment streamCapacity (bytes ++ stream.bytesIn host)).emitted =
          (segment streamCapacity bytes).emitted ++ (stream.receive host).frames.map .ok) := by
  unfold receive
  split
  next heq =>
    have hdry : stream.bytesIn host = [] := by rw [bytesIn, heq]; rfl
    rw [hdry, List.append_nil]
    exact .inr ⟨hheld, (List.append_nil _).symm⟩
  next => exact .inl ⟨_, rfl⟩
  next => exact .inl ⟨_, rfl⟩
  next more _ _ heq =>
    have hbytes : stream.bytesIn host = more := by rw [bytesIn, heq]; rfl
    rw [hbytes]
    simp only [hheld]
    split
    next => exact .inl ⟨_, rfl⟩
    next hdrained =>
      obtain ⟨hemitted, hrest⟩ := Reassembly.drain_leftOver hdrained
      exact .inr ⟨hrest, hemitted⟩

end FramedStream

end Rendezvous
