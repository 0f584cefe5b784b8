import Rendezvous.Proofs.Host.Added
import Rendezvous.Proofs.Wire.Canonical

/-!
# Rendezvous.Proofs.Host.Fruitless

**What operations come to when the system declines everything.** A call is fruitless if it
would have blocked; calls that move no traffic are so at any rate. Where all calls of an
operation are fruitless, a read is dry and leaves the stream as it was, a receive finds
nothing, and a write or a send that has something to write has to wait.

* `receive_of_fruitless`, `recvDatagram_of_fruitless`: what comes in.
* `resume_of_fruitless`, `transmit_of_fruitless`, `sendDatagram_of_fruitless`: what goes out.

A loop whose operations all come to nothing should wait: `shortestWait_pos` says when it does.
-/

namespace Rendezvous

/-- Does an answer say that the operation would block? -/
def declines {α : Type} : Except IoKind α → Bool
  | .error .wouldBlock => true
  | _ => false

theorem eq_wouldBlock_of_declines {α : Type} {answer : Except IoKind α}
    (h : declines answer = true) : answer = .error .wouldBlock := by
  rcases answer with kind | value
  · cases kind <;> first | rfl | cases h
  · cases h

/-- Would a call have blocked, if it is one that moves traffic? -/
def Call.fruitless : Call → Bool
  | .accept answer => declines answer
  | .read _ _ answer => declines answer
  | .write _ _ answer => declines answer
  | .recv _ answer => declines answer
  | .send _ _ answer => declines answer
  | _ => true

/-! ### Streams -/

/-- Bytes are offered at once, and nothing takes that call back. -/
theorem offer_prefix_sendBytes {id : StreamId} {bytes : Bytes} (hsome : bytes ≠ []) (host : Host) :
    (host.offer id bytes).2.calls <+: (sendBytes id bytes host).2.calls := by
  have hrest (bytes : Bytes) (next : Host) :
      next.calls <+: (sendWithin id (host.script id).writes.length bytes next).2.calls := by
    obtain ⟨new, hcalls, -⟩ := exchange_sendWithin id (host.script id).writes.length bytes next
    exact hcalls ▸ List.prefix_append ..
  have hnonempty : bytes.isEmpty = false := by simpa using hsome
  unfold sendBytes sendWithin
  rw [hnonempty]
  rcases host.offer id bytes with ⟨kind | taken, next⟩
  · cases kind with
    | interrupted => exact hrest bytes next
    | _ => exact List.prefix_rfl
  · cases taken with
    | zero => exact List.prefix_rfl
    | succ taken => exact hrest (bytes.drop (taken + 1)) next

/-- Of bytes that are offered in vain nothing is taken. -/
theorem sendBytes_of_fruitless {id : StreamId} {bytes : Bytes} {host : Host} (hsome : bytes ≠ [])
    (h : Added Call.fruitless host (sendBytes id bytes host).2) :
    (sendBytes id bytes host).1 = .ok 0 := by
  have hcalls := host.calls_offer id bytes
  -- The first offer is among the calls, so it is declined, and nothing is tried after it.
  have hfirst : (host.offer id bytes).1 = .error .wouldBlock :=
    eq_wouldBlock_of_declines ((h.split (hcalls ▸ List.prefix_append ..)
      (offer_prefix_sendBytes hsome host)).1.last (.of_call hcalls))
  have hnonempty : bytes.isEmpty = false := by simpa using hsome
  unfold sendBytes sendWithin
  rw [hnonempty]
  rcases hoffer : host.offer id bytes with ⟨answer, next⟩
  rw [hoffer] at hfirst
  cases hfirst
  rfl

namespace FramedStream

variable {stream : FramedStream} {host : Host}

/-- A fruitless read is dry. -/
theorem receive_of_fruitless (h : Added Call.fruitless host (stream.receive host).host) :
    stream.receive host = ⟨stream, (stream.receive host).host, [], .ok .dry⟩ := by
  have hends := (readUninterrupted_calls host stream.id stream.reassembly.room).2
  rw [host_receive] at h ⊢
  have hanswer := eq_wouldBlock_of_declines (h.last hends)
  unfold receive
  rcases hread : host.readUninterrupted stream.id stream.reassembly.room with ⟨answer, next⟩
  rw [hread] at hanswer
  cases hanswer
  rfl

/-- A frame in flight that is offered in vain has to wait. -/
theorem resume_of_fruitless (hflight : stream.hasInFlight = true)
    (h : Added Call.fruitless host (stream.resume host).host) :
    (stream.resume host).result = .ok .waiting := by
  have hsome : stream.inFlight.isEmpty = false := by simpa [hasInFlight] using hflight
  have hsend := @sendBytes_of_fruitless stream.id stream.inFlight host (by simpa using hsome)
  unfold resume at h ⊢
  rw [hsome] at h ⊢
  rcases hsent : sendBytes stream.id stream.inFlight host with ⟨answer, next⟩
  rw [hsent] at h hsend
  cases answer with
  | error e => cases hsend h
  | ok sent =>
      cases hsend h
      simp [hsome]

/-- So does a message. -/
theorem transmit_of_fruitless {msg : Message} {frame : Bytes} (hframe : msg.encode = .ok frame)
    {scratch : Scratch} (h : Added Call.fruitless host (stream.transmit msg scratch host).1.host) :
    (stream.transmit msg scratch host).1.result = .ok .waiting := by
  have hlong : 0 < frame.length :=
    Nat.lt_of_lt_of_le (by decide) (Message.minFrameLength_le_of_encode hframe)
  have hsend := @sendBytes_of_fruitless stream.id frame host (List.length_pos_iff.1 hlong)
  have hencoded := (msg.fst_encodeScratch scratch).trans hframe
  unfold transmit at h ⊢
  rcases hscratch : msg.encodeScratch scratch with ⟨encoded, scratch'⟩
  rw [hscratch] at hencoded h
  obtain rfl : encoded = .ok frame := hencoded
  rcases hsent : sendBytes stream.id frame host with ⟨answer, next⟩
  simp only [hsent] at h hsend ⊢
  cases answer with
  | error e => cases hsend h
  | ok sent =>
      have hnone : Added Call.fruitless host next := by
        simp only at h
        split at h <;> exact h
      cases hsend hnone
      simp only [if_neg (Nat.ne_of_lt hlong)]

end FramedStream

/-! ### Datagrams -/

/-- A fruitless receive finds nothing. -/
theorem recvDatagram_of_fruitless {host : Host}
    (h : Added Call.fruitless host (recvDatagram host).2) :
    (recvDatagram host).1 = .ok .absent := by
  have hends := (recvUninterrupted_calls host datagramRoom).2
  have hcalls : (host.recvUninterrupted datagramRoom).2.calls = (recvDatagram host).2.calls := by
    unfold recvDatagram
    split <;> simp_all
  have hanswer := eq_wouldBlock_of_declines ((h.trans (.of_calls_eq hcalls)).last hends)
  unfold recvDatagram
  rcases hrecv : host.recvUninterrupted datagramRoom with ⟨answer, next⟩
  rw [hrecv] at hanswer
  cases hanswer
  rfl

/-- A datagram that is sent in vain has to wait. -/
theorem sendDatagram_of_fruitless {msg : Message} {frame : Bytes} (hframe : msg.encode = .ok frame)
    (hlength : frame.length ≤ longestDatagram) {target : SocketAddr} {scratch : Scratch}
    {host : Host} (h : Added Call.fruitless host (sendDatagram msg target scratch host).2.2) :
    (sendDatagram msg target scratch host).1 = .ok .waiting := by
  have hencoded := (msg.fst_encodeScratch scratch).trans hframe
  have hends := (sendUninterrupted_calls host target frame).2
  unfold sendDatagram at h ⊢
  rcases hscratch : msg.encodeScratch scratch with ⟨encoded, scratch'⟩
  rw [hscratch] at hencoded h
  obtain rfl : encoded = .ok frame := hencoded
  simp only [Nat.not_lt.2 hlength, if_false] at h ⊢
  rcases hsent : host.sendUninterrupted target frame with ⟨answer, next⟩
  rw [hsent] at h hends
  have hnext : Added Call.fruitless host next := by
    refine h.trans (.of_calls_eq ?_)
    split
    next heq => cases heq; split <;> rfl
    next heq => cases heq; rfl
    next heq => cases heq; rfl
  cases eq_wouldBlock_of_declines (hnext.last hends)
  rfl

/-! ### Waiting -/

theorem Host.clock_supply (host : Host) (supply : Supply) :
    (host.supply supply).clock = host.clock := by
  have harrivals : (supply.arrivals.foldl supplyArrival host).clock = host.clock :=
    List.foldlRecOn (motive := fun b : Host => b.clock = host.clock) _ _ rfl
      fun b hbefore arrival _ => by cases arrival <;> exact hbefore
  exact List.foldlRecOn (motive := fun b : Host => b.clock = host.clock) _ _ harrivals
    fun b hbefore entry _ => hbefore

/-- A wait is positive if its default is and no timer has run out. -/
theorem shortestWait_pos {default : Duration} {lefts : List (Option Duration)}
    (hdefault : 0 < default.nanos) (hlefts : ∀ left ∈ lefts, left ≠ some .zero) :
    0 < (shortestWait default lefts).nanos := by
  unfold shortestWait
  have hsome : ∀ left ∈ lefts.filterMap id, left ≠ .zero := by
    intro left hmem
    obtain ⟨_, hleft, rfl⟩ := List.mem_filterMap.1 hmem
    exact fun hzero => hlefts _ hleft (congrArg some hzero)
  generalize lefts.filterMap id = waits at hsome
  induction waits generalizing default with
  | nil => exact hdefault
  | cons wait waits ih =>
      obtain ⟨hfirst, hrest⟩ := List.forall_mem_cons.1 hsome
      refine ih (Nat.lt_min.2 ⟨hdefault, Nat.pos_of_ne_zero fun hzero => hfirst ?_⟩) hrest
      cases wait
      exact congrArg Duration.mk hzero

end Rendezvous
