import Rendezvous.Proofs.Host.Accepted
import Rendezvous.Proofs.Wire.RoundTrip

/-!
# Rendezvous.Proofs.Channel.Output

**A stream carries whole frames.** What a stream has carried is what it has accepted
so far, followed by what is still in flight (`carried`). Both kinds of write keep it a row
of frames, however little of them is taken at a time:

* `carried_resume`: going on with a frame in flight changes nothing of it.
* `carried_transmit`: a message that is written while nothing is in flight adds its frame
  at the end.

A write that fails is not spoken of here, since the stream is then lost.
-/

namespace Rendezvous

/-! ### Frames -/

namespace Message

/-- The frame of a message; a message that is too long for one has none. -/
def frame (msg : Message) : Bytes :=
  match msg.encode with
  | .ok bytes => bytes
  | .error _ => []

theorem frame_of_encode {msg : Message} {bytes : Bytes} (h : msg.encode = .ok bytes) :
    msg.frame = bytes := by
  simp [frame, h]

/-- A list that is not too long has its entries counted, and fits the receive buffer. -/
theorem peersToConnect_fits {entries : List PeerEntry} (h : entries.length ≤ maxListLength) :
    (peersToConnect entries).countable = true ∧
      Put.total ((peersToConnect entries).puts 0) ≤ streamCapacity := by
  rw [maxListLength_eq] at h
  have hentry : entryLength = 12 := rfl
  have hword : maxWord = 4294967295 := rfl
  have hcapacity : streamCapacity = 10240 := rfl
  refine ⟨decide_eq_true ?_, ?_⟩
  · omega
  · rw [total_peersToConnect, hentry, hcapacity]
    omega

/-- A message that fits a receive buffer has a frame. -/
theorem encode_of_fits_capacity {msg : Message} (hcountable : msg.countable = true)
    (hfits : Put.total (msg.puts 0) ≤ streamCapacity) :
    ∃ bytes, msg.encode = .ok bytes ∧ bytes.length = Put.total (msg.puts 0) := by
  have hword : streamCapacity ≤ maxWord := by decide
  exact encode_of_fits hcountable (Nat.le_trans hfits hword)

end Message

/-- The frames of messages, one behind the other. -/
def frames (msgs : List Message) : Bytes := msgs.flatMap Message.frame

@[simp] theorem frames_nil : frames [] = [] := rfl

@[simp] theorem frames_cons (msg : Message) (msgs : List Message) :
    frames (msg :: msgs) = msg.frame ++ frames msgs := rfl

@[simp] theorem frames_append (msgs more : List Message) :
    frames (msgs ++ more) = frames msgs ++ frames more := List.flatMap_append

/-! ### Writing -/

namespace FramedStream

variable {stream : FramedStream} {msg : Message} {scratch : Scratch} {host : Host}
  {outcome : WriteOutcome}

/-- What a stream has carried: what it has accepted and what is in flight. -/
def carried (stream : FramedStream) (host : Host) : Bytes :=
  accepted stream.id host.calls ++ stream.inFlight

theorem carried_congr {stream stream' : FramedStream} {host host' : Host}
    (hid : stream'.id = stream.id) (hflight : stream'.inFlight = stream.inFlight)
    (haccepted : accepted stream.id host'.calls = accepted stream.id host.calls) :
    stream'.carried host' = stream.carried host := by
  rw [carried, carried, hid, hflight, haccepted]

/-- What a stream takes of bytes, and what is left of them, are together the bytes. -/
theorem carried_of_sendBytes {id : StreamId} {bytes : Bytes} {sent : Nat}
    (h : (sendBytes id bytes host).1 = .ok sent) :
    accepted id (sendBytes id bytes host).2.calls ++ bytes.drop sent =
      accepted id host.calls ++ bytes := by
  rw [accepted_sendBytes h, List.append_assoc, List.take_append_drop]

/-- A frame in flight stays the same frame while it is written piece by piece. -/
theorem carried_resume (h : (stream.resume host).result = .ok outcome) :
    (stream.resume host).stream.carried (stream.resume host).host = stream.carried host := by
  unfold resume at h ⊢
  split
  next => rfl
  next hsome =>
    rw [if_neg hsome] at h
    have hsend := @carried_of_sendBytes host stream.id stream.inFlight
    split at h
    next => cases h
    next sent rest heq =>
      rw [heq] at hsend
      exact hsend rfl

/-- A message written while nothing is in flight adds its frame. -/
theorem carried_transmit (hflight : stream.inFlight = [])
    (h : (stream.transmit msg scratch host).1.result = .ok outcome) :
    (stream.transmit msg scratch host).1.stream.carried
        (stream.transmit msg scratch host).1.host =
      stream.carried host ++ msg.frame := by
  have hencode := msg.fst_encodeScratch scratch
  unfold transmit at h ⊢
  split at h
  next => cases h
  next bytes scratch' heq =>
    rw [heq] at hencode
    rw [msg.frame_of_encode hencode.symm]
    have hsend := @carried_of_sendBytes host stream.id bytes
    split at h
    next => cases h
    next sent rest hsent =>
      rw [hsent] at hsend
      have hcarried := hsend rfl
      simp only
      by_cases hall : sent = bytes.length
      · subst hall
        simpa [carried, hflight] using hcarried
      · simpa [carried, hflight, hall] using hcarried

theorem accepted_resume_other {other : StreamId} (hne : other ≠ stream.id) :
    accepted other (stream.resume host).host.calls = accepted other host.calls := by
  have hsend := accepted_sendBytes_other hne stream.inFlight host
  unfold resume
  split
  next => rfl
  next => split <;> (next heq => rwa [heq] at hsend)

theorem accepted_transmit_other {other : StreamId} (hne : other ≠ stream.id) :
    accepted other (stream.transmit msg scratch host).1.host.calls = accepted other host.calls := by
  unfold transmit
  split
  next => rfl
  next bytes _ _ =>
    have hsend := accepted_sendBytes_other hne bytes host
    split
    next heq => rwa [heq] at hsend
    next heq =>
      rw [heq] at hsend
      split <;> exact hsend

end FramedStream

end Rendezvous
