import Rendezvous.Host.Stage
import Rendezvous.Proofs.Host.Trace

/-!
# Rendezvous.Proofs.Host.Added

**What kind of calls an operation makes.** `Added kind` says of two states of the system that
only calls of a kind were made in between. There is one lemma for each operation, and every
view of the trace that takes no notice of that kind is then the same before and after
(`Added.filterMap_eq`).

An operation that is repeated while it is interrupted makes, before the call that has the
answer, only calls that were interrupted: `filterMap_retry` says so of a view of the trace, and
`retry_exact` of the calls themselves.
-/

namespace Rendezvous

/-! ### Kinds of calls -/

namespace Call

/-- Is a call an attempt to receive a datagram? -/
def receives : Call → Bool
  | .recv .. => true
  | _ => false

/-- Is a call an attempt to send a datagram? -/
def sends : Call → Bool
  | .send .. => true
  | _ => false

/-- Is a call a read of a stream? -/
def readsFrom (id : StreamId) : Call → Bool
  | .read stream .. => stream = id
  | _ => false

/-- Does a call offer bytes to a stream? -/
def writesTo (id : StreamId) : Call → Bool
  | .write stream .. => stream = id
  | _ => false

/-- Is a call a request to watch a source for something else? -/
def reregisters : Call → Bool
  | .reregister .. => true
  | _ => false

/-- Is a call a poll? -/
def polls : Call → Bool
  | .poll _ => true
  | _ => false

end Call

/-- The calls that were made between two states of the system. -/
def Host.callsSince (before after : Host) : List Call := after.calls.drop before.calls.length

theorem Host.callsSince_eq {before after : Host} {new : List Call}
    (h : after.calls = before.calls ++ new) : before.callsSince after = new := by
  rw [callsSince, h, List.drop_left]

/-- Between two states of the system only calls of a kind were made. -/
def Added (kind : Call → Bool) (before after : Host) : Prop :=
  ∃ new, after.calls = before.calls ++ new ∧ ∀ call ∈ new, kind call = true

namespace Added

variable {kind kind' : Call → Bool} {a b c : Host}

theorem of_calls_eq (h : b.calls = a.calls) : Added kind a b := ⟨[], by simp [h], by simp⟩

theorem refl (a : Host) : Added kind a a := of_calls_eq rfl

theorem of_call {call : Call} (h : b.calls = a.calls ++ [call]) (hcall : kind call = true) :
    Added kind a b :=
  ⟨[call], h, by simpa using hcall⟩

theorem trans (hab : Added kind a b) (hbc : Added kind b c) : Added kind a c := by
  obtain ⟨xs, hxs, hx⟩ := hab
  obtain ⟨ys, hys, hy⟩ := hbc
  exact ⟨xs ++ ys, by rw [hys, hxs, List.append_assoc], List.forall_mem_append.2 ⟨hx, hy⟩⟩

theorem mono (h : Added kind a b) (himp : ∀ call, kind call = true → kind' call = true) :
    Added kind' a b := by
  obtain ⟨new, hcalls, hnew⟩ := h
  exact ⟨new, hcalls, fun call hcall => himp call (hnew call hcall)⟩

/-- Where the trace has grown, what it has on top was added. -/
theorem of_extends (h : a.calls <+: b.calls)
    (hnew : ∀ call ∈ b.calls.drop a.calls.length, kind call = true) : Added kind a b := by
  obtain ⟨new, hcalls⟩ := h
  rw [← hcalls, List.drop_left] at hnew
  exact ⟨new, hcalls.symm, hnew⟩

/-- Both parts of what was added are of the kind of the whole. -/
theorem split (h : Added kind a c) (hab : a.calls <+: b.calls) (hbc : b.calls <+: c.calls) :
    Added kind a b ∧ Added kind b c := by
  obtain ⟨new, hcalls, hnew⟩ := h
  obtain ⟨first, hfirst⟩ := hab
  obtain ⟨second, hsecond⟩ := hbc
  have hparts : new = first ++ second := by
    rw [← hsecond, ← hfirst, List.append_assoc] at hcalls
    exact (List.append_cancel_left hcalls).symm
  rw [hparts, List.forall_mem_append] at hnew
  exact ⟨⟨first, hfirst.symm, hnew.1⟩, ⟨second, hsecond.symm, hnew.2⟩⟩

/-- The last of what was added is of its kind. -/
theorem last {call : Call} (h : Added kind a b) (hends : EndsIn call a b) : kind call = true := by
  obtain ⟨new, hcalls, hnew⟩ := h
  obtain ⟨others, hends⟩ := hends
  have hparts : new = others ++ [call] := by
    rw [hends, List.append_assoc] at hcalls
    exact (List.append_cancel_left hcalls).symm
  exact hnew call (by simp [hparts])

end Added

/-! ### Stages -/

namespace Stage

variable {σ : Type} (host : σ → Host) {stage : Stage σ} {next : σ → Stage σ}

theorem calls_andThen (h : ∀ s, (host s).calls <+: (host (next s).state).calls) :
    (host stage.state).calls <+: (host (stage.andThen next).state).calls :=
  andThen_induction (motive := fun s => (host stage.state).calls <+: (host s).calls)
    List.prefix_rfl fun s hbefore => hbefore.trans (h s)

/-- What a sequence of stages adds, each of them adds. -/
theorem added_of_andThen {kind : Call → Bool} {before : Host}
    (hstage : before.calls <+: (host stage.state).calls)
    (hnext : ∀ s, (host s).calls <+: (host (next s).state).calls)
    (h : Added kind before (host (stage.andThen next).state)) :
    Added kind before (host stage.state) ∧
      (stage.failure = none → Added kind (host stage.state) (host (next stage.state).state)) := by
  have hparts := h.split hstage (calls_andThen host hnext)
  refine ⟨hparts.1, fun hgoing => ?_⟩
  have hrest := hparts.2
  rwa [andThen, hgoing] at hrest

end Stage

/-! ### Repetition -/

section Retry

variable {α : Type} {operation : Host → Except IoKind α × Host} {call : Except IoKind α → Call}

theorem added_retry {kind : Call → Bool}
    (hop : ∀ host, (operation host).2.calls = host.calls ++ [call (operation host).1])
    (hkind : ∀ answer, kind (call answer) = true) (tries : Nat) (host : Host) :
    Added kind host (retry operation tries host).2 :=
  retry_induction (fun host => .of_call (hop host) (hkind _)) (fun _ _ _ => .trans) tries host

/-- A view that takes no notice of an interrupted call sees the answer only. -/
theorem filterMap_retry {β : Type} {view : Call → Option β}
    (hop : ∀ host, (operation host).2.calls = host.calls ++ [call (operation host).1])
    (hview : view (call (.error .interrupted)) = none) (tries : Nat) (host : Host) :
    (retry operation tries host).2.calls.filterMap view =
      host.calls.filterMap view ++ (view (call (retry operation tries host).1)).toList := by
  have honce (host : Host) : (operation host).2.calls.filterMap view =
      host.calls.filterMap view ++ (view (call (operation host).1)).toList := by
    rw [hop, List.filterMap_append]
    cases hcall : view (call (operation host).1) <;> simp [hcall]
  induction tries generalizing host with
  | zero => exact honce host
  | succ tries ih =>
      have hfirst := honce host
      unfold retry
      split
      next next heq =>
        rw [heq, hview] at hfirst
        rw [ih next, hfirst]
        simp
      next => exact hfirst

/-- The last answer is that of one of the operations. -/
theorem retry_answer (operation : Host → Except IoKind α × Host) (tries : Nat) (host : Host) :
    ∃ state, (retry operation tries host).1 = (operation state).1 := by
  induction tries generalizing host with
  | zero => exact ⟨host, rfl⟩
  | succ tries ih =>
      unfold retry
      split
      next next _ => exact ih next
      next => exact ⟨host, rfl⟩

/-- With tries for all outcomes in store, an operation that uses one up when it is interrupted
is repeated until it is not: its calls are any number that were interrupted, and the one that
has the answer. -/
theorem retry_exact (left : Host → Nat)
    (hop : ∀ host, (operation host).2.calls = host.calls ++ [call (operation host).1])
    (hleft : ∀ host next, operation host = (.error .interrupted, next) → left next < left host)
    {tries : Nat} {host : Host} (htries : left host ≤ tries) :
    (retry operation tries host).1 ≠ .error .interrupted ∧
      ∃ count, (retry operation tries host).2.calls =
        host.calls ++ List.replicate count (call (.error .interrupted)) ++
          [call (retry operation tries host).1] := by
  induction tries generalizing host with
  | zero =>
      refine ⟨fun hanswer => ?_, 0, by simpa [retry] using hop host⟩
      have hfewer := hleft host _ (Prod.ext hanswer rfl)
      omega
  | succ tries ih =>
      have hcalls := hop host
      unfold retry
      split
      next next heq =>
        have hfewer := hleft host next heq
        obtain ⟨hanswer, count, hmore⟩ := ih (show left next ≤ tries by omega)
        have hcalls : next.calls = host.calls ++ [call (.error .interrupted)] := by
          rwa [heq] at hcalls
        refine ⟨hanswer, count + 1, hmore.trans ?_⟩
        simp [hcalls, List.replicate_succ]
      next hother =>
        exact ⟨fun hanswer => hother _ (Prod.ext hanswer rfl), 0, by simpa using hcalls⟩

end Retry

/-! ### The poller -/

theorem added_reregister {host next : Host} {source : Source} {token : Nat} {interest : Interest}
    {failure : Option IoKind} (h : host.reregister source token interest = (failure, next)) :
    Added Call.reregisters host next := by
  have hcalls := host.calls_reregister source token interest
  rw [h] at hcalls
  exact .of_call hcalls rfl

theorem added_poll (host : Host) (timeout : Duration) (turn : Turn) :
    Added Call.polls host (host.poll timeout turn).2 :=
  .of_call (host.calls_poll timeout turn) rfl

/-! ### Datagrams -/

theorem added_recvDatagram (host : Host) : Added Call.receives host (recvDatagram host).2 := by
  have hrecv : Added Call.receives host (host.recvUninterrupted datagramRoom).2 :=
    added_retry (fun host => host.calls_recv _) (fun _ => rfl) _ host
  unfold recvDatagram
  split
  next heq => rwa [heq] at hrecv
  next heq => rwa [heq] at hrecv
  next heq =>
    rw [heq] at hrecv
    exact hrecv.trans (.of_calls_eq rfl)

theorem added_sendDatagram (msg : Message) (target : SocketAddr) (scratch : Scratch)
    (host : Host) : Added Call.sends host (sendDatagram msg target scratch host).2.2 := by
  unfold sendDatagram
  split
  next => exact .refl host
  next bytes _ _ =>
    have hsend : Added Call.sends host (host.sendUninterrupted target bytes).2 :=
      added_retry (fun host => host.calls_send _ _) (fun _ => rfl) _ host
    split
    next => exact .refl host
    next =>
      split
      next heq =>
        rw [heq] at hsend
        simp only
        split
        · exact hsend
        · exact hsend.trans (.of_calls_eq rfl)
      next heq => rwa [heq] at hsend
      next heq => rwa [heq] at hsend

/-! ### Streams -/

namespace FramedStream

theorem added_receive (stream : FramedStream) (host : Host) :
    Added (Call.readsFrom stream.id) host (stream.receive host).host := by
  rw [host_receive]
  exact added_retry (fun host => host.calls_read _ _) (fun _ => decide_eq_true rfl) _ host

theorem added_sendBytes (id : StreamId) (bytes : Bytes) (host : Host) :
    Added (Call.writesTo id) host (sendBytes id bytes host).2 :=
  sendWithin_induction .refl (fun _ _ _ => .trans)
    (fun host bytes => .of_call (host.calls_offer id bytes) (decide_eq_true rfl)) _ bytes host

theorem added_resume (stream : FramedStream) (host : Host) :
    Added (Call.writesTo stream.id) host (stream.resume host).host := by
  have hsend := added_sendBytes stream.id stream.inFlight host
  unfold resume
  split
  next => exact .refl host
  next => split <;> (next heq => rwa [heq] at hsend)

theorem added_transmit (stream : FramedStream) (msg : Message) (scratch : Scratch)
    (host : Host) :
    Added (Call.writesTo stream.id) host (stream.transmit msg scratch host).1.host := by
  unfold transmit
  split
  next => exact .refl host
  next bytes _ _ =>
    have hsend := added_sendBytes stream.id bytes host
    split
    next heq => rwa [heq] at hsend
    next heq =>
      rw [heq] at hsend
      simp only
      split <;> exact hsend

end FramedStream
end Rendezvous
