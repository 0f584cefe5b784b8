import Rendezvous.Proofs.Host.Trace

/-!
# Rendezvous.Proofs.Host.Arrived

**What has come in.** Two things come in that are not asked for by name: the bytes that
reads get from a stream, and the connections that are accepted. `arrived` and `connections`
read them off the trace.

* `arrived_receive`: a read of a stream adds the bytes that it got, `FramedStream.bytesIn`,
  to what has arrived on that stream, and nothing to what has arrived on another.
* `connections_accept`: an accept adds the connection that it answers.
* `NothingIn` holds of everything else that is asked of the system.
-/

namespace Rendezvous

/-- The bytes that a call gets from a stream. -/
def Call.arrivedOn (id : StreamId) : Call → Bytes
  | .read stream _ (.ok bytes) => if stream = id then bytes else []
  | _ => []

/-- The bytes read from a stream in a trace. -/
def arrived (id : StreamId) (calls : List Call) : Bytes :=
  calls.flatMap (Call.arrivedOn id)

/-- The connection that a call accepts. -/
def Call.connection? : Call → Option StreamId
  | .accept (.ok id) => some id
  | _ => none

/-- The connections accepted in a trace, in order. -/
def connections (calls : List Call) : List StreamId :=
  calls.filterMap Call.connection?

theorem arrived_append (id : StreamId) (calls more : List Call) :
    arrived id (calls ++ more) = arrived id calls ++ arrived id more :=
  List.flatMap_append

theorem arrived_snoc (id : StreamId) (calls : List Call) (call : Call) :
    arrived id (calls ++ [call]) = arrived id calls ++ call.arrivedOn id := by
  simp [arrived]

theorem connections_append (calls more : List Call) :
    connections (calls ++ more) = connections calls ++ connections more :=
  List.filterMap_append

/-! ### Calls in which nothing comes in -/

/-- Does a call get bytes from a stream, or a connection? -/
def Call.bringsIn : Call → Bool
  | .read _ _ (.ok _) => true
  | .accept (.ok _) => true
  | _ => false

/-- Between two states of the system nothing was read from a stream, and no connection was
accepted. -/
def NothingIn (before after : Host) : Prop :=
  ∃ new, after.calls = before.calls ++ new ∧ ∀ call ∈ new, call.bringsIn = false

theorem Call.arrivedOn_eq_nil {call : Call} (h : call.bringsIn = false) (id : StreamId) :
    call.arrivedOn id = [] := by
  unfold arrivedOn
  split
  · cases h
  · rfl

theorem Call.connection?_eq_none {call : Call} (h : call.bringsIn = false) :
    call.connection? = none := by
  unfold connection?
  split
  · cases h
  · rfl

namespace NothingIn

variable {a b c : Host}

theorem of_calls_eq (h : b.calls = a.calls) : NothingIn a b := ⟨[], by simp [h], by simp⟩

theorem refl (a : Host) : NothingIn a a := of_calls_eq rfl

theorem trans (hab : NothingIn a b) (hbc : NothingIn b c) : NothingIn a c := by
  obtain ⟨xs, hxs, hx⟩ := hab
  obtain ⟨ys, hys, hy⟩ := hbc
  refine ⟨xs ++ ys, by simp [hxs, hys], fun call hcall => ?_⟩
  rcases List.mem_append.mp hcall with h | h
  · exact hx call h
  · exact hy call h

theorem of_call {call : Call} (h : b.calls = a.calls ++ [call]) (hcall : call.bringsIn = false) :
    NothingIn a b :=
  ⟨[call], h, by simpa using hcall⟩

theorem arrived_eq (h : NothingIn a b) (id : StreamId) :
    arrived id b.calls = arrived id a.calls := by
  obtain ⟨new, hcalls, hnew⟩ := h
  have hnone : arrived id new = [] :=
    List.flatMap_eq_nil_iff.2 fun call hcall => Call.arrivedOn_eq_nil (hnew call hcall) id
  rw [hcalls, arrived_append, hnone, List.append_nil]

theorem connections_eq (h : NothingIn a b) : connections b.calls = connections a.calls := by
  obtain ⟨new, hcalls, hnew⟩ := h
  have hnone : connections new = [] :=
    List.filterMap_eq_nil_iff.2 fun call hcall => Call.connection?_eq_none (hnew call hcall)
  rw [hcalls, connections_append, hnone, List.append_nil]

end NothingIn

/-! ### Datagrams, registrations and polls -/

theorem nothingIn_recvDatagram (host : Host) : NothingIn host (recvDatagram host).2 := by
  have hrecv : NothingIn host (host.recvUninterrupted datagramRoom).2 :=
    retry_induction (fun host => .of_call (host.calls_recv _) rfl) (fun _ _ _ => .trans) _ host
  unfold recvDatagram
  split
  next heq => rwa [heq] at hrecv
  next heq => rwa [heq] at hrecv
  next heq =>
    rw [heq] at hrecv
    exact hrecv.trans (.of_calls_eq rfl)

theorem nothingIn_sendDatagram (msg : Message) (target : SocketAddr) (scratch : Scratch)
    (host : Host) : NothingIn host (sendDatagram msg target scratch host).2.2 := by
  unfold sendDatagram
  split
  next => exact .refl host
  next bytes _ _ =>
    have hsend : NothingIn host (host.sendUninterrupted target bytes).2 :=
      retry_induction (fun host => .of_call (host.calls_send _ _) rfl) (fun _ _ _ => .trans) _ host
    split
    next => exact .refl host
    next =>
      split
      next heq =>
        rw [heq] at hsend
        simp only
        split
        · exact hsend
        · exact hsend.trans (.of_calls_eq rfl)
      next heq => rwa [heq] at hsend
      next heq => rwa [heq] at hsend

theorem nothingIn_register {host next : Host} {source : Source} {token : Nat}
    {interest : Interest} {failure : Option IoKind}
    (h : host.register source token interest = (failure, next)) : NothingIn host next := by
  have hcalls := host.calls_register source token interest
  rw [h] at hcalls
  exact .of_call hcalls rfl

theorem nothingIn_reregister {host next : Host} {source : Source} {token : Nat}
    {interest : Interest} {failure : Option IoKind}
    (h : host.reregister source token interest = (failure, next)) : NothingIn host next := by
  have hcalls := host.calls_reregister source token interest
  rw [h] at hcalls
  exact .of_call hcalls rfl

theorem nothingIn_poll (host : Host) (timeout : Duration) (turn : Turn) :
    NothingIn host (host.poll timeout turn).2 :=
  .of_call (host.calls_poll timeout turn) rfl

/-! ### Accepting -/

theorem nothingIn_accept_error {host next : Host} {kind : IoKind}
    (h : host.accept = (.error kind, next)) : NothingIn host next :=
  .of_call (accept_error h).2 rfl

theorem connections_accept {host next : Host} {id : StreamId} {addr : SocketAddr}
    (h : host.accept = (.ok (id, addr), next)) :
    connections next.calls = connections host.calls ++ [id] := by
  rw [(accept_ok h).2.2, connections_append]
  rfl

theorem arrived_accept {host next : Host} {id : StreamId} {addr : SocketAddr}
    (h : host.accept = (.ok (id, addr), next)) (other : StreamId) :
    arrived other next.calls = arrived other host.calls := by
  rw [(accept_ok h).2.2, arrived_snoc]
  exact List.append_nil _

/-! ### Writing to a stream -/

theorem nothingIn_sendBytes (id : StreamId) (bytes : Bytes) (host : Host) :
    NothingIn host (sendBytes id bytes host).2 :=
  sendWithin_induction .refl (fun _ _ _ => .trans)
    (fun host bytes => .of_call (host.calls_offer id bytes) rfl) _ bytes host

namespace FramedStream

theorem nothingIn_resume (stream : FramedStream) (host : Host) :
    NothingIn host (stream.resume host).host := by
  have hsend := nothingIn_sendBytes stream.id stream.inFlight host
  unfold resume
  split
  next => exact .refl host
  next => split <;> simp_all

theorem nothingIn_transmit (stream : FramedStream) (msg : Message) (scratch : Scratch)
    (host : Host) : NothingIn host (stream.transmit msg scratch host).1.host := by
  unfold transmit
  split
  next => exact .refl host
  next bytes _ _ =>
    have hsend := nothingIn_sendBytes stream.id bytes host
    split
    next heq => rwa [heq] at hsend
    next heq =>
      rw [heq] at hsend
      simp only
      split <;> exact hsend

@[simp] theorem reassembly_resume (stream : FramedStream) (host : Host) :
    (stream.resume host).stream.reassembly = stream.reassembly := by
  unfold resume
  split
  · rfl
  · split <;> rfl

@[simp] theorem reassembly_transmit (stream : FramedStream) (msg : Message) (scratch : Scratch)
    (host : Host) : (stream.transmit msg scratch host).1.stream.reassembly = stream.reassembly := by
  unfold transmit
  split
  · rfl
  · split
    · rfl
    · simp only
      split <;> rfl

/-! ### Reading from a stream -/

/-- The bytes that one read of a stream gets. -/
def bytesIn (stream : FramedStream) (host : Host) : Bytes :=
  ((host.readUninterrupted stream.id stream.reassembly.room).1.toOption).getD []

end FramedStream

/-- A repeated read gets nothing before the answer that it ends with. -/
theorem arrived_retry_read (id other : StreamId) (room tries : Nat) (host : Host) :
    arrived other (retry (fun host => host.read id room) tries host).2.calls =
      arrived other host.calls ++
        if id = other then
          ((retry (fun host => host.read id room) tries host).1.toOption).getD []
        else [] := by
  have hread (host : Host) : arrived other (host.read id room).2.calls =
      arrived other host.calls ++
        if id = other then ((host.read id room).1.toOption).getD [] else [] := by
    rw [host.calls_read, arrived_snoc]
    cases (host.read id room).1 <;> simp [Call.arrivedOn, Except.toOption]
  induction tries generalizing host with
  | zero => exact hread host
  | succ tries ih =>
      have hfirst := hread host
      unfold retry
      split
      next next heq =>
        rw [heq] at hfirst
        rw [ih next, hfirst]
        simp [Except.toOption]
      next => exact hfirst

/-- A read gets its bytes from its own stream. -/
theorem arrived_receive (stream : FramedStream) (host : Host) (id : StreamId) :
    arrived id (stream.receive host).host.calls =
      arrived id host.calls ++ if stream.id = id then stream.bytesIn host else [] := by
  rw [FramedStream.host_receive]
  exact arrived_retry_read stream.id id stream.reassembly.room _ host

theorem connections_receive (stream : FramedStream) (host : Host) :
    connections (stream.receive host).host.calls = connections host.calls := by
  rw [FramedStream.host_receive]
  refine retry_induction (motive := fun a b => connections b.calls = connections a.calls) ?_
    (fun _ _ _ hab hbc => hbc.trans hab) _ host
  intro host
  rw [host.calls_read, connections_append]
  exact List.append_nil _

end Rendezvous
