import Rendezvous.Proofs.Channel.Reading
import Rendezvous.Proofs.Host.Added
import Rendezvous.Proofs.Wire.RoundTrip

/-!
# Rendezvous.Proofs.Channel.Faults

**What a stream fails of.** A read that gets nothing, a write of which nothing is taken, and
any failure but to have to wait or to be interrupted are the end of a stream. `endings`
counts the calls in a trace that were, so what is done in several calls adds up.

* `receive_error_iff`: a read fails when that is the end of the stream, or when it gets bytes
  with which there is a frame that does not decode.
* `endings_resume` and `endings_transmit`: a write fails together with one of its calls, since
  every message that is queued has a frame.
-/

namespace Rendezvous

/-! ### Calls that are the end of a stream -/

/-- Is a failure one that neither waiting nor asking again gets over? -/
def IoKind.isHard : IoKind → Bool
  | .wouldBlock | .interrupted => false
  | _ => true

/-- Is a call the end of a stream? -/
def Call.ends (id : StreamId) : Call → Bool
  | .read stream _ (.ok bytes) => stream = id && bytes.isEmpty
  | .read stream _ (.error kind) => stream = id && kind.isHard
  | .write stream _ (.ok taken) => stream = id && taken == 0
  | .write stream _ (.error kind) => stream = id && kind.isHard
  | _ => false

/-- How many calls in a trace are the end of a stream. -/
def endings (id : StreamId) (calls : List Call) : Nat := calls.countP (Call.ends id)

/-- One for an operation that fails. -/
def failures {ε α : Type} : Except ε α → Nat
  | .ok _ => 0
  | .error _ => 1

theorem endings_append (id : StreamId) (calls more : List Call) :
    endings id (calls ++ more) = endings id calls + endings id more :=
  List.countP_append

theorem endings_snoc (id : StreamId) (calls : List Call) (call : Call) :
    endings id (calls ++ [call]) = endings id calls + (call.ends id).toNat := by
  rw [endings_append, endings, endings, List.countP_singleton]
  cases call.ends id <;> rfl

/-- Among new calls one is the end of a stream when there are more than before. -/
theorem endings_lt_iff {id : StreamId} {calls new : List Call} :
    endings id calls < endings id (calls ++ new) ↔ ∃ call ∈ new, call.ends id = true := by
  rw [endings_append, Nat.lt_add_right_iff_pos, endings, List.countP_pos_iff]

/-! ### Reading -/

/-- How many outcomes a stream has in store for reads. -/
def Host.readsLeft (host : Host) (id : StreamId) : Nat := (host.script id).reads.length

/-- A read that is interrupted uses up an outcome. -/
theorem readsLeft_read {host next : Host} {id : StreamId} {room : Nat}
    (h : host.read id room = (.error .interrupted, next)) :
    next.readsLeft id < host.readsLeft id := by
  obtain ⟨rest, hreads⟩ : ∃ rest, (host.script id).reads = .fail .interrupted :: rest := by
    have hanswer : (readScript room (host.script id).reads).1 = .error .interrupted :=
      congrArg Prod.fst h
    unfold readScript at hanswer
    split at hanswer <;> simp_all
  have hknown : id.index < host.streams.length := by
    refine Nat.lt_of_not_le fun hunknown => ?_
    simp [Host.script, hunknown, StreamScript.idle] at hreads
  have hscript : next.script id = { host.script id with reads := rest } := by
    obtain rfl : next = (host.read id room).2 := (congrArg Prod.snd h).symm
    have hrest : (readScript room (host.script id).reads).2 = rest := by rw [hreads]; rfl
    change (host.setScript id { host.script id with
      reads := (readScript room (host.script id).reads).2 }).script id = _
    rw [hrest]
    simp [Host.script, Host.setScript, hknown]
  rw [Host.readsLeft, Host.readsLeft, hscript, hreads]
  exact Nat.lt_succ_self _

/-- With tries for all outcomes in store, no read is interrupted for good, and the last one is
the only one that can be the end of the stream. -/
theorem endings_retry_read {id : StreamId} {room tries : Nat} {host : Host}
    (htries : host.readsLeft id ≤ tries) :
    (retry (fun host => host.read id room) tries host).1 ≠ .error .interrupted ∧
      endings id (retry (fun host => host.read id room) tries host).2.calls =
        endings id host.calls +
          ((Call.read id room (retry (fun host => host.read id room) tries host).1).ends
            id).toNat := by
  obtain ⟨hanswer, count, hcalls⟩ := retry_exact (fun host => host.readsLeft id)
    (fun host => host.calls_read id room) (fun _ _ => readsLeft_read) htries
  have hinterrupted :
      endings id (List.replicate count (.read id room (.error .interrupted))) = 0 := by
    simp [endings, List.countP_replicate, Call.ends, IoKind.isHard]
  refine ⟨hanswer, ?_⟩
  rw [hcalls, endings_snoc, endings_append, hinterrupted, Nat.add_zero]

namespace Reassembly

/-- Draining fails when there is a frame among what is held that does not decode. -/
theorem drain_failure_iff (r : Reassembly) :
    r.drain.failure ≠ none ↔ ∃ e, .error e ∈ (segment r.capacity r.held).emitted := by
  constructor
  · intro hfailure
    induction r using drain.induct with
    | case1 r rest hcut => exact absurd (by rw [drain_of_cut_none hcut]) hfailure
    | case2 r e rest hcut =>
        obtain ⟨-, -, frame, hframe, hsegment⟩ := segment_of_cut_some hcut
        exact ⟨e, by simp [hsegment, Segmentation.after, Segmentation.emitted, hframe]⟩
    | case3 r msg rest hcut ih =>
        obtain ⟨hcapacity, -, frame, -, hsegment⟩ := segment_of_cut_some hcut
        rw [drain_of_cut_ok hcut] at hfailure
        obtain ⟨e, he⟩ := ih hfailure
        rw [hcapacity] at he
        exact ⟨e, by rw [hsegment]; exact List.mem_cons_of_mem _ he⟩
  · rintro ⟨e, he⟩ hnone
    rw [(drain_eq hnone).1] at he
    simp at he

end Reassembly

namespace FramedStream

variable {stream : FramedStream} {host : Host} {msg : Message} {scratch : Scratch}

/-- A read of the stream gets bytes with which there is a frame that does not decode. -/
def Garbled (stream : FramedStream) (host : Host) : Prop :=
  stream.bytesIn host ≠ [] ∧
    ∃ e, .error e ∈ (segment stream.reassembly.capacity
      (stream.reassembly.held ++ stream.bytesIn host)).emitted

/-- A read of a stream fails when that is the end of the stream, or with the bytes that it gets
there is a frame that does not decode. -/
theorem receive_error_iff (stream : FramedStream) (host : Host) :
    (∃ e, (stream.receive host).result = .error e) ↔
      endings stream.id host.calls < endings stream.id (stream.receive host).host.calls ∨
        stream.Garbled host := by
  have hread := @endings_retry_read stream.id stream.reassembly.room _ host (Nat.le_refl _)
  have hretry : host.readUninterrupted stream.id stream.reassembly.room =
    retry (fun host => host.read stream.id stream.reassembly.room)
      (host.readsLeft stream.id) host := rfl
  rw [← hretry] at hread
  rw [host_receive, hread.2, Nat.lt_add_right_iff_pos]
  unfold receive Garbled bytesIn
  split
  next heq => simp [heq, Call.ends, IoKind.isHard, Except.toOption]
  next kind next hblock heq =>
    have hhard : kind.isHard = true := by
      rw [heq] at hread
      cases kind <;> first | rfl | exact absurd rfl hread.1 | exact absurd rfl (hblock ·)
    simp [heq, Call.ends, hhard]
  next heq => simp [heq, Call.ends]
  next bytes next hempty heq =>
    have hframes : (stream.reassembly.append bytes).drain.failure ≠ none ↔
        ∃ e, .error e ∈ (segment stream.reassembly.capacity
          (stream.reassembly.held ++ bytes)).emitted :=
      (stream.reassembly.append bytes).drain_failure_iff
    have hgot : bytes ≠ [] := hempty
    simp only [heq, Except.toOption, Option.getD_some, ← hframes]
    cases hfailure : (stream.reassembly.append bytes).drain.failure with
    | none => simp [Call.ends, hgot]
    | some e => simp [hgot]

/-! ### Writing -/

/-- Offering bytes fails together with one of the calls. -/
theorem endings_sendWithin (id : StreamId) (tries : Nat) (bytes : Bytes) (host : Host) :
    endings id (sendWithin id tries bytes host).2.calls =
      endings id host.calls + failures (sendWithin id tries bytes host).1 := by
  induction tries generalizing bytes host with
  | zero => rfl
  | succ tries ih =>
      have hoffer : endings id (host.offer id bytes).2.calls =
          endings id host.calls +
            ((Call.write id bytes (host.offer id bytes).1).ends id).toNat := by
        rw [host.calls_offer, endings_snoc]
      rw [sendWithin]
      split
      next => rfl
      next =>
        generalize host.offer id bytes = answered at hoffer ⊢
        rcases answered with ⟨kind | taken, next⟩
        · cases kind with
          | interrupted =>
              have hrest := ih bytes next
              rw [hoffer] at hrest
              simpa [Call.ends, IoKind.isHard] using hrest
          | _ => simpa [Call.ends, IoKind.isHard, failures] using hoffer
        · cases taken with
          | zero => simpa [Call.ends, failures] using hoffer
          | succ taken =>
              have hrest := ih (bytes.drop (taken + 1)) next
              rw [hoffer] at hrest
              cases hmore : (sendWithin id tries (bytes.drop (taken + 1)) next).1 <;>
                simpa [hmore, Call.ends, failures, Except.map] using hrest

theorem endings_sendBytes (id : StreamId) (bytes : Bytes) (host : Host) :
    endings id (sendBytes id bytes host).2.calls =
      endings id host.calls + failures (sendBytes id bytes host).1 :=
  endings_sendWithin ..

/-- Going on with a frame fails together with a call. -/
theorem endings_resume (stream : FramedStream) (host : Host) :
    endings stream.id (stream.resume host).host.calls =
      endings stream.id host.calls + failures (stream.resume host).result := by
  have hsend := endings_sendBytes stream.id stream.inFlight host
  unfold resume
  split
  next => rfl
  next =>
    split
    next heq => rwa [heq] at hsend
    next heq => rwa [heq] at hsend

/-- Writing a message that has a frame fails together with a call. -/
theorem endings_transmit {frame : Bytes} (h : msg.encode = .ok frame) (stream : FramedStream)
    (scratch : Scratch) (host : Host) :
    endings stream.id (stream.transmit msg scratch host).1.host.calls =
      endings stream.id host.calls + failures (stream.transmit msg scratch host).1.result := by
  have hencoded := (msg.fst_encodeScratch scratch).trans h
  unfold transmit
  split
  next heq =>
    rw [heq] at hencoded
    cases hencoded
  next bytes _ _ =>
    have hsend := endings_sendBytes stream.id bytes host
    split
    next heq => rwa [heq] at hsend
    next heq =>
      rw [heq] at hsend
      simp only
      split <;> exact hsend

end FramedStream
end Rendezvous
