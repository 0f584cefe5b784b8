import Rendezvous.Proofs.Host.Trace

/-!
# Rendezvous.Proofs.Host.Accepted

**The bytes that a stream has accepted.** A stream accepts the head of what a write
offers it, as far as the write answers. `accepted` reads them off the trace, for one
stream at a time.

* `accepted_sendBytes`: a send that answers how much was taken had that much accepted.
* `accepted_sendBytes_other`: whatever a send answers, no other stream accepts anything.
* `SameAccepted` holds of everything else that is asked of the system.
-/

namespace Rendezvous

/-- The bytes that a stream accepts in a call. -/
def Call.acceptedBy (id : StreamId) : Call → Bytes
  | .write stream offered (.ok taken) => if stream = id then offered.take taken else []
  | _ => []

/-- The bytes that a stream has accepted in a trace. -/
def accepted (id : StreamId) (calls : List Call) : Bytes :=
  calls.flatMap (Call.acceptedBy id)

theorem accepted_append (id : StreamId) (calls more : List Call) :
    accepted id (calls ++ more) = accepted id calls ++ accepted id more :=
  List.flatMap_append

theorem accepted_snoc (id : StreamId) (calls : List Call) (call : Call) :
    accepted id (calls ++ [call]) = accepted id calls ++ call.acceptedBy id := by
  simp [accepted]

/-! ### Calls in which nothing is accepted -/

/-- Between two states of the system no stream has accepted anything. -/
def SameAccepted (before after : Host) : Prop :=
  ∀ id, accepted id after.calls = accepted id before.calls

namespace SameAccepted

variable {a b c : Host}

theorem of_calls_eq (h : b.calls = a.calls) : SameAccepted a b := fun id => by rw [h]

theorem refl (a : Host) : SameAccepted a a := of_calls_eq rfl

theorem trans (hab : SameAccepted a b) (hbc : SameAccepted b c) : SameAccepted a c :=
  fun id => (hbc id).trans (hab id)

theorem of_call {call : Call} (h : b.calls = a.calls ++ [call])
    (hcall : ∀ id, call.acceptedBy id = []) : SameAccepted a b := fun id => by
  rw [h, accepted_snoc, hcall, List.append_nil]

end SameAccepted

theorem sameAccepted_receive (stream : FramedStream) (host : Host) :
    SameAccepted host (stream.receive host).host := by
  rw [FramedStream.host_receive]
  exact retry_induction (fun host => .of_call (host.calls_read _ _) fun _ => rfl)
    (fun _ _ _ => .trans) _ host

theorem sameAccepted_recvDatagram (host : Host) : SameAccepted host (recvDatagram host).2 := by
  have hrecv : SameAccepted host (host.recvUninterrupted datagramRoom).2 :=
    retry_induction (fun host => .of_call (host.calls_recv _) fun _ => rfl) (fun _ _ _ => .trans) _
      host
  unfold recvDatagram
  split
  next heq => rwa [heq] at hrecv
  next heq => rwa [heq] at hrecv
  next heq =>
    rw [heq] at hrecv
    exact hrecv.trans (.of_calls_eq rfl)

theorem sameAccepted_sendDatagram (msg : Message) (target : SocketAddr) (scratch : Scratch)
    (host : Host) : SameAccepted host (sendDatagram msg target scratch host).2.2 := by
  unfold sendDatagram
  split
  next => exact .refl host
  next bytes _ _ =>
    have hsend : SameAccepted host (host.sendUninterrupted target bytes).2 :=
      retry_induction (fun host => .of_call (host.calls_send _ _) fun _ => rfl)
        (fun _ _ _ => .trans) _ host
    split
    next => exact .refl host
    next =>
      split
      next heq =>
        rw [heq] at hsend
        simp only
        split
        · exact hsend
        · exact hsend.trans (.of_calls_eq rfl)
      next heq => rwa [heq] at hsend
      next heq => rwa [heq] at hsend

theorem sameAccepted_register {host next : Host} {source : Source} {token : Nat}
    {interest : Interest} {failure : Option IoKind}
    (h : host.register source token interest = (failure, next)) : SameAccepted host next := by
  have hcalls := host.calls_register source token interest
  rw [h] at hcalls
  exact .of_call hcalls fun _ => rfl

theorem sameAccepted_reregister {host next : Host} {source : Source} {token : Nat}
    {interest : Interest} {failure : Option IoKind}
    (h : host.reregister source token interest = (failure, next)) : SameAccepted host next := by
  have hcalls := host.calls_reregister source token interest
  rw [h] at hcalls
  exact .of_call hcalls fun _ => rfl

theorem sameAccepted_accept {host next : Host} {answer : Except IoKind (StreamId × SocketAddr)}
    (h : host.accept = (answer, next)) : SameAccepted host next := by
  have hcalls := host.calls_accept
  rw [h] at hcalls
  exact .of_call hcalls fun _ => rfl

theorem sameAccepted_poll (host : Host) (timeout : Duration) (turn : Turn) :
    SameAccepted host (host.poll timeout turn).2 :=
  .of_call (host.calls_poll timeout turn) fun _ => rfl

/-- Streams that nobody can hold yet have accepted nothing: those that wait to be accepted,
and those that are still to come. -/
def Host.Unwritten (host : Host) : Prop :=
  ∀ id, id ∈ host.waiting ∨ host.streams.length ≤ id.index → accepted id host.calls = []

theorem Host.Unwritten.mono {a b : Host} (h : a.Unwritten) (hstreams : MoreStreams a b)
    (hsame : ∀ id, id ∈ a.waiting ∨ a.streams.length ≤ id.index →
      accepted id b.calls = accepted id a.calls) : b.Unwritten := by
  intro id hid
  have hbefore := hstreams.beyond hid
  exact (hsame id hbefore).trans (h id hbefore)

/-! ### Writes -/

theorem accepted_offer_other {id other : StreamId} (hne : other ≠ id) (host : Host)
    (bytes : Bytes) :
    accepted other (host.offer id bytes).2.calls = accepted other host.calls := by
  rw [host.calls_offer, accepted_snoc]
  cases (host.offer id bytes).1 <;> simp [Call.acceptedBy, hne.symm]

/-- An offer has as much accepted as it answers. -/
theorem accepted_offer_ok {id : StreamId} {host : Host} {bytes : Bytes} {taken : Nat}
    (h : (host.offer id bytes).1 = .ok taken) :
    accepted id (host.offer id bytes).2.calls = accepted id host.calls ++ bytes.take taken := by
  rw [host.calls_offer, accepted_snoc, h]
  simp [Call.acceptedBy]

/-- A failing offer has nothing accepted. -/
theorem accepted_offer_error {id : StreamId} {host : Host} {bytes : Bytes} {kind : IoKind}
    (h : (host.offer id bytes).1 = .error kind) :
    accepted id (host.offer id bytes).2.calls = accepted id host.calls := by
  rw [host.calls_offer, accepted_snoc, h]
  simp [Call.acceptedBy]

/-- The offers of a send are taken one behind the other, so that together they are the head
of what was to be sent. -/
theorem accepted_sendWithin {id : StreamId} {tries : Nat} {bytes : Bytes} {host : Host}
    {sent : Nat} (h : (sendWithin id tries bytes host).1 = .ok sent) :
    accepted id (sendWithin id tries bytes host).2.calls =
      accepted id host.calls ++ bytes.take sent := by
  induction tries generalizing bytes host sent with
  | zero =>
      cases h
      simp [sendWithin]
  | succ tries ih =>
      rcases sendWithin_succ h with ⟨rfl, rfl⟩ | ⟨hblock, rfl, hafter⟩ |
        ⟨taken, more, htaken, hmore, rfl, hafter⟩
      · simp
      · rw [hafter, accepted_offer_error hblock]
        simp
      · have hfirst : accepted id (host.offer id bytes).2.calls =
            accepted id host.calls ++ bytes.take taken := by
          rcases htaken with htaken | ⟨hinterrupted, rfl⟩
          · exact accepted_offer_ok htaken
          · rw [accepted_offer_error hinterrupted]
            simp
        rw [hafter, ih hmore, hfirst, List.append_assoc, ← List.take_add]

theorem accepted_sendBytes {id : StreamId} {bytes : Bytes} {host : Host} {sent : Nat}
    (h : (sendBytes id bytes host).1 = .ok sent) :
    accepted id (sendBytes id bytes host).2.calls = accepted id host.calls ++ bytes.take sent :=
  accepted_sendWithin h

theorem accepted_sendBytes_other {id other : StreamId} (hne : other ≠ id) (bytes : Bytes)
    (host : Host) :
    accepted other (sendBytes id bytes host).2.calls = accepted other host.calls :=
  sendWithin_induction (motive := fun a b => accepted other b.calls = accepted other a.calls)
    (fun _ => rfl) (fun _ _ _ hab hbc => hbc.trans hab)
    (fun host bytes => accepted_offer_other hne host bytes) _ bytes host

end Rendezvous
