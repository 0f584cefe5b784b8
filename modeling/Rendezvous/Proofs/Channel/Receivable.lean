import Rendezvous.Proofs.Channel.Output
import Rendezvous.Proofs.Channel.Reading
import Rendezvous.Proofs.Wire.Canonical

/-!
# Rendezvous.Proofs.Channel.Receivable

**What a receiver makes of a row of frames.** A frame that fits the capacity of a receive
buffer is announced as it is, so a buffer that is given the beginning of a row of such frames
drops nothing, and its answers are the first of the messages (`Feed.run_of_prefix`).

`Message.Listing` is what a coordinator sends over a connection: lists that fit the buffer of
whoever reads them. A write that fails has given the stream the beginning of what was to be
written, and nothing else: `accepted_resume_prefix` and `accepted_transmit_prefix`. It does not
fail of the protocol, unless there is no frame to write: `resume_ne_protocol` and
`transmit_ne_protocol`.
-/

namespace Rendezvous

/-! ### Frames that fit -/

/-- A frame announces its length, if the receiver has room for it. -/
theorem frameStart_of_encode {msg : Message} {bytes : Bytes} {capacity : Nat}
    (h : msg.encode = .ok bytes) (hfits : bytes.length ≤ capacity) :
    frameStart capacity bytes = some bytes.length := by
  have hlong := Message.minFrameLength_le_of_encode h
  rw [frameStart, Message.declaredLength_of_encode h, Option.filter_some]
  simp [hlong, hfits]

/-- A message whose frame is short by its layout has one, which fits a datagram. -/
theorem exists_encode_of_short {msg : Message} (h : msg.frameLength ≤ longestDatagram) :
    ∃ frame, msg.encode = .ok frame ∧ frame.length ≤ longestDatagram := by
  obtain ⟨frame, hframe⟩ := Message.exists_encode_eq_ok_iff.2 (Nat.le_trans h (by decide))
  exact ⟨frame, hframe, Message.length_of_encode hframe ▸ h⟩

/-- A peer list whose frame fits the receive buffer of a connection. -/
structure Message.Listing (msg : Message) : Prop where
  list : ∃ entries, msg = .peersToConnect entries
  encodes : msg.encode = .ok msg.frame
  shortest : minFrameLength ≤ msg.frame.length
  longest : msg.frame.length ≤ streamCapacity
  starts : frameStart streamCapacity msg.frame = some msg.frame.length

/-- A list that is not too long is one. -/
theorem listing_of_length {entries : List PeerEntry} (h : entries.length ≤ maxListLength) :
    (Message.peersToConnect entries).Listing := by
  obtain ⟨hcountable, hfits⟩ := Message.peersToConnect_fits h
  obtain ⟨frame, hframe, hlength⟩ := Message.encode_of_fits_capacity hcountable hfits
  have hlongest : frame.length ≤ streamCapacity := hlength ▸ hfits
  obtain rfl := Message.frame_of_encode hframe
  exact ⟨⟨entries, rfl⟩, hframe, Message.minFrameLength_le_of_encode hframe, hlongest,
    frameStart_of_encode hframe hlongest⟩

theorem Message.Listing.eight_le {msg : Message} (h : msg.Listing) : 8 ≤ msg.frame.length :=
  Nat.le_trans (by decide) h.shortest

/-! ### Segmenting the beginning of a row of frames -/

/-- The beginning of one frame is not cut, and no byte of it is dropped. -/
theorem segment_of_part {msg : Message} (h : msg.Listing) {bytes : Bytes}
    (hpart : bytes <+: msg.frame) (hshort : bytes.length < msg.frame.length) :
    segment streamCapacity bytes = ⟨[], 0, bytes⟩ := by
  by_cases hheader : 8 ≤ bytes.length
  · obtain ⟨more, hmore⟩ := hpart
    have hstart := h.starts
    rw [← hmore] at hstart
    have hannounced := (frameStart_eq_some_iff (by simp; omega) []).1 hstart
    rw [List.append_nil] at hannounced
    exact segment_of_incomplete hheader ((frameStart_eq_some_iff hheader more).2 hannounced)
      (hmore ▸ hshort)
  · exact segment_of_headerMissing ((headerMissing_iff bytes).2 (Nat.lt_of_not_le hheader)) _

/-- Of the beginning of a row of frames no byte is dropped, and what is cut off are the first
frames of the row. -/
theorem segment_prefix_frames {msgs : List Message} (h : ∀ msg ∈ msgs, msg.Listing)
    {bytes : Bytes} (hfirst : bytes <+: frames msgs) :
    (segment streamCapacity bytes).skipped = 0 ∧
      (segment streamCapacity bytes).frames <+: msgs.map Message.frame := by
  induction msgs generalizing bytes with
  | nil =>
      obtain rfl := List.prefix_nil.1 hfirst
      rw [segment_of_headerMissing rfl]
      exact ⟨rfl, List.prefix_rfl⟩
  | cons msg msgs ih =>
      obtain ⟨hmsg, hmsgs⟩ := List.forall_mem_cons.1 h
      rw [frames_cons] at hfirst
      -- The bytes end within the first frame, or the whole of it is cut off.
      rcases Nat.lt_or_ge bytes.length msg.frame.length with hshort | hlong
      · have hpart := List.prefix_of_prefix_length_le hfirst (List.prefix_append ..)
          (Nat.le_of_lt hshort)
        rw [segment_of_part hmsg hpart hshort]
        exact ⟨rfl, List.nil_prefix⟩
      · obtain ⟨rest, rfl⟩ :=
          List.prefix_of_prefix_length_le (List.prefix_append ..) hfirst hlong
        obtain ⟨hskipped, hframes⟩ :=
          ih hmsgs ((List.prefix_append_right_inj _).1 hfirst)
        rw [segment_frame hmsg.eight_le hmsg.starts (Nat.le_refl _)]
        simp only [List.drop_length, List.nil_append, List.take_length, Segmentation.after]
        exact ⟨by omega, (List.prefix_append_right_inj [msg.frame]).2 hframes⟩

/-- **A receiver drops no byte of a row of frames** and answers with their messages, one after
the other. -/
theorem Feed.run_of_prefix {msgs : List Message} (h : ∀ msg ∈ msgs, msg.Listing)
    (steps : List FeedStep) (hfirst : (run streamCapacity steps).taken <+: frames msgs) :
    (run streamCapacity steps).reassembly.skipped = 0 ∧
      (run streamCapacity steps).answers <+: msgs.map .ok := by
  obtain ⟨cut, hcut⟩ := (hasCut_start streamCapacity).steps steps
  have hwhole := hcut.ahead []
  rw [List.append_nil, List.append_nil] at hwhole
  obtain ⟨hskipped, hframes⟩ := segment_prefix_frames h hfirst
  have hdecoded : (msgs.map Message.frame).map Message.decode = msgs.map .ok := by
    rw [List.map_map]
    exact List.map_congr_left fun msg hmem => Message.decode_encode (h msg hmem).encodes
  constructor
  · have hsum := (congrArg Segmentation.skipped hwhole).symm.trans hskipped
    exact (Nat.add_eq_zero_iff.1 hsum).1
  · have hanswers := hcut.answers_eq
    rw [← hdecoded]
    refine hanswers ▸ List.IsPrefix.map _ (List.IsPrefix.trans ?_ hframes)
    exact hcut.frames_eq ▸ List.prefix_append ..

/-! ### Writes that fail -/

/-- Whatever comes of it, a stream takes the beginning of what it is given. -/
theorem accepted_sendWithin_prefix (id : StreamId) (tries : Nat) (bytes : Bytes) (host : Host) :
    accepted id (sendWithin id tries bytes host).2.calls <+: accepted id host.calls ++ bytes := by
  have hnothing {next : Host} (h : accepted id next.calls = accepted id host.calls) :
      accepted id next.calls <+: accepted id host.calls ++ bytes :=
    h ▸ List.prefix_append ..
  induction tries generalizing bytes host with
  | zero => exact hnothing rfl
  | succ tries ih =>
      have htaken := @accepted_offer_ok id host bytes
      have herror := @accepted_offer_error id host bytes
      unfold sendWithin
      split
      next => exact hnothing rfl
      next =>
        rcases hoffer : host.offer id bytes with ⟨kind | taken, next⟩ <;> rw [hoffer] at htaken herror
        · have hsame : accepted id next.calls = accepted id host.calls := herror rfl
          cases kind with
          | interrupted =>
              -- Nothing was taken, and the same bytes are offered again.
              have hmore := ih bytes next fun h => h ▸ List.prefix_append ..
              rwa [hsame] at hmore
          | _ => exact hnothing hsame
        · have hmore := htaken rfl
          cases taken with
          | zero => exact hnothing (hmore.trans (by simp))
          | succ taken =>
              have hrest := ih (bytes.drop (taken + 1)) next fun h => h ▸ List.prefix_append ..
              simp only at hmore
              rwa [hmore, List.append_assoc, List.take_append_drop] at hrest

namespace FramedStream

variable {stream : FramedStream}

/-- Whatever comes of going on with a frame in flight, the stream takes the beginning of it. -/
theorem accepted_resume_prefix (stream : FramedStream) (host : Host) :
    accepted stream.id (stream.resume host).host.calls <+: stream.carried host := by
  have hsend := accepted_sendWithin_prefix stream.id
    ((host.script stream.id).writes.length + 1) stream.inFlight host
  unfold resume
  split
  next => exact List.prefix_append ..
  next => split <;> (next heq => rw [sendBytes] at heq; rw [heq] at hsend; exact hsend)

/-- Whatever comes of writing a message while nothing is in flight, the stream takes the
beginning of its frame. -/
theorem accepted_transmit_prefix (msg : Message) (scratch : Scratch) (host : Host)
    (hflight : stream.inFlight = []) :
    accepted stream.id (stream.transmit msg scratch host).1.host.calls <+:
      stream.carried host ++ msg.frame := by
  have hencode := msg.fst_encodeScratch scratch
  rw [carried, hflight, List.append_nil]
  unfold transmit
  split
  next => exact List.prefix_append ..
  next bytes scratch' heq =>
    rw [heq] at hencode
    rw [msg.frame_of_encode hencode.symm]
    have hsend := accepted_sendWithin_prefix stream.id
      ((host.script stream.id).writes.length + 1) bytes host
    split
    next heq => rw [sendBytes] at heq; rwa [heq] at hsend
    next heq =>
      rw [sendBytes] at heq
      rw [heq] at hsend
      simp only
      split <;> exact hsend

end FramedStream

/-! ### Failures of the protocol -/

theorem Reassembly.mem_emitted_of_drain {r : Reassembly} {e : CodecError}
    (h : r.drain.failure = some e) : .error e ∈ (segment r.capacity r.held).emitted := by
  induction r using drain.induct with
  | case1 r rest hcut =>
      rw [drain_of_cut_none hcut] at h
      cases h
  | case2 r e' rest hcut =>
      rw [drain_of_cut_error hcut] at h
      cases h
      obtain ⟨-, -, frame, hframe, hsegment⟩ := segment_of_cut_some hcut
      simp [hsegment, Segmentation.after, Segmentation.emitted, hframe]
  | case3 r msg rest hcut ih =>
      obtain ⟨hcapacity, -, frame, -, hsegment⟩ := segment_of_cut_some hcut
      rw [drain_of_cut_ok hcut] at h
      rw [hsegment]
      exact List.mem_cons_of_mem _ (hcapacity ▸ ih h)

/-- A read of the stream gets bytes with which there is a frame that fails to decode in a
certain way. -/
def FramedStream.GarbledBy (stream : FramedStream) (host : Host) (e : CodecError) : Prop :=
  stream.bytesIn host ≠ [] ∧ .error e ∈ (segment stream.reassembly.capacity
    (stream.reassembly.held ++ stream.bytesIn host)).emitted

/-- A read fails of the protocol only with what it gets. -/
theorem FramedStream.garbledBy_of_receive {stream : FramedStream} {host : Host} {e : CodecError}
    (h : (stream.receive host).result = .error (.protocol e)) : stream.GarbledBy host e := by
  unfold receive at h
  unfold GarbledBy bytesIn
  split at h
  next => cases h
  next => cases h
  next => cases h
  next bytes next hempty heq =>
    rw [heq]
    cases hfailure : (stream.reassembly.append bytes).drain.failure with
    | none => simp [hfailure] at h
    | some e' =>
        obtain rfl : e' = e := by simpa [hfailure] using h
        exact ⟨hempty, Reassembly.mem_emitted_of_drain hfailure⟩

theorem sendBytes_ne_protocol (id : StreamId) (bytes : Bytes) (host : Host) (e : CodecError) :
    (sendBytes id bytes host).1 ≠ .error (.protocol e) := by
  unfold sendBytes
  generalize (host.script id).writes.length + 1 = tries
  induction tries generalizing bytes host with
  | zero => simp [sendWithin]
  | succ tries ih =>
      unfold sendWithin
      split
      · simp
      · split
        · simp
        next taken next _ _ =>
          have hrest := ih (bytes.drop taken) next
          rcases hmore : sendWithin id tries (bytes.drop taken) next with ⟨failure | more, last⟩
          · simpa [hmore, Except.map] using hrest
          · simp [Except.map]
        · simp
        · exact ih bytes _
        · simp

namespace FramedStream

theorem resume_ne_protocol (stream : FramedStream) (host : Host) (e : CodecError) :
    (stream.resume host).result ≠ .error (.protocol e) := by
  have hsend := sendBytes_ne_protocol stream.id stream.inFlight host e
  unfold resume
  split
  · exact nofun
  · split
    next heq => simpa [heq] using hsend
    next => exact nofun

/-- Writing a message that has a frame does not fail of the protocol. -/
theorem transmit_ne_protocol {msg : Message} {frame : Bytes} (hframe : msg.encode = .ok frame)
    (stream : FramedStream) (scratch : Scratch) (host : Host) (e : CodecError) :
    (stream.transmit msg scratch host).1.result ≠ .error (.protocol e) := by
  have hencoded := (msg.fst_encodeScratch scratch).trans hframe
  unfold transmit
  split
  next heq =>
    rw [heq] at hencoded
    cases hencoded
  next bytes _ _ =>
    have hsend := sendBytes_ne_protocol stream.id bytes host e
    split
    next heq => simpa [heq] using hsend
    next => simp only; split <;> exact nofun

end FramedStream

end Rendezvous
