import Rendezvous.Channel.Packet

/-!
# Rendezvous.Proofs.Host.Trace

**What reading and writing adds to the trace.** Every operation on a stream or on
the packet socket adds calls at the end of the trace and nothing else, and none of
these calls changes a registration (`Exchange`). When an operation gives up because
it would block, the call that said so is the last one (`EndsIn`).

* `exchange_receive`, `receive_dry`: one read of a stream.
* `exchange_transmit`, `exchange_resume` and `transmit_waiting`, `resume_waiting`: writes.
* `exchange_recvDatagram`, `recvDatagram_absent`: one datagram received.
* `exchange_sendDatagram`, `sendDatagram_waiting`: one datagram sent.
-/

namespace Rendezvous

/-- Is a call traffic, which leaves registrations and the set of streams alone? -/
def Call.isTraffic : Call → Bool
  | .poll _ | .accept _ | .read .. | .write .. | .recv .. | .send .. => true
  | _ => false

/-- Between two states of the system there was nothing but traffic. -/
def Exchange (before after : Host) : Prop :=
  ∃ new, after.calls = before.calls ++ new ∧ ∀ call ∈ new, call.isTraffic = true

/-- Between two states of the system there was traffic that ended in a call. -/
def EndsIn (call : Call) (before after : Host) : Prop :=
  ∃ new, after.calls = before.calls ++ new ++ [call]

namespace Exchange

variable {a b c : Host}

theorem of_calls_eq (h : b.calls = a.calls) : Exchange a b := ⟨[], by simp [h], by simp⟩

theorem refl (a : Host) : Exchange a a := of_calls_eq rfl

theorem trans (hab : Exchange a b) (hbc : Exchange b c) : Exchange a c := by
  obtain ⟨xs, hxs, hx⟩ := hab
  obtain ⟨ys, hys, hy⟩ := hbc
  refine ⟨xs ++ ys, by simp [hxs, hys], ?_⟩
  intro call hcall
  rcases List.mem_append.mp hcall with h | h
  · exact hx call h
  · exact hy call h

theorem of_call {call : Call} (h : b.calls = a.calls ++ [call]) (hcall : call.isTraffic = true) :
    Exchange a b :=
  ⟨[call], h, by simpa using hcall⟩

end Exchange

namespace EndsIn

variable {a b c : Host} {call : Call}

theorem of_call (h : b.calls = a.calls ++ [call]) : EndsIn call a b := ⟨[], by simp [h]⟩

/-- More calls may come first. -/
theorem prepend (hab : Exchange a b) (hbc : EndsIn call b c) : EndsIn call a c := by
  obtain ⟨xs, hxs, -⟩ := hab
  obtain ⟨ys, hys⟩ := hbc
  exact ⟨xs ++ ys, by simp [hxs, hys]⟩

end EndsIn

/-! ### Single calls -/

namespace Host

@[simp] theorem calls_record (host : Host) (call : Call) :
    (host.record call).calls = host.calls ++ [call] := rfl

@[simp] theorem calls_write (host : Host) (entries : Log) :
    (host.write entries).calls = host.calls := rfl

@[simp] theorem calls_note (host : Host) (level : Level) (text : String) :
    (host.note level text).calls = host.calls := rfl

@[simp] theorem calls_setScript (host : Host) (id : StreamId) (script : StreamScript) :
    (host.setScript id script).calls = host.calls := rfl

@[simp] theorem calls_supplyArrival (host : Host) (arrival : NewArrival) :
    (host.supplyArrival arrival).calls = host.calls := by
  cases arrival <;> rfl

@[simp] theorem calls_supply (host : Host) (supply : Supply) :
    (host.supply supply).calls = host.calls := by
  have harrivals : ∀ (host : Host) (arrivals : List NewArrival),
      (arrivals.foldl supplyArrival host).calls = host.calls := by
    intro host arrivals
    induction arrivals generalizing host with
    | nil => rfl
    | cons arrival arrivals ih => rw [List.foldl_cons, ih, calls_supplyArrival]
  have hstreams : ∀ (host : Host) (streams : List (StreamId × StreamScript)),
      (streams.foldl supplyStream host).calls = host.calls := by
    intro host streams
    induction streams generalizing host with
    | nil => rfl
    | cons stream streams ih => exact ih _
  simp only [Host.supply, hstreams, harrivals]

theorem calls_register (host : Host) (source : Source) (token : Nat) (interest : Interest) :
    (host.register source token interest).2.calls =
      host.calls ++ [.register source token interest (host.register source token interest).1] := rfl

theorem calls_reregister (host : Host) (source : Source) (token : Nat) (interest : Interest) :
    (host.reregister source token interest).2.calls =
      host.calls ++ [.reregister source token interest (host.reregister source token interest).1] :=
  rfl

theorem calls_deregister (host : Host) (source : Source) :
    (host.deregister source).2.calls =
      host.calls ++ [.deregister source (host.deregister source).1] := rfl

theorem calls_poll (host : Host) (timeout : Duration) (turn : Turn) :
    (host.poll timeout turn).2.calls = host.calls ++ [.poll timeout] := by
  unfold poll
  cases turn.pollFailure <;> rfl

theorem calls_read (host : Host) (id : StreamId) (room : Nat) :
    (host.read id room).2.calls = host.calls ++ [.read id room (host.read id room).1] := rfl

theorem calls_offer (host : Host) (id : StreamId) (bytes : Bytes) :
    (host.offer id bytes).2.calls = host.calls ++ [.write id bytes (host.offer id bytes).1] := rfl

theorem calls_accept (host : Host) :
    host.accept.2.calls = host.calls ++ [.accept (host.accept.1.map Prod.fst)] := rfl

theorem calls_recv (host : Host) (room : Nat) :
    (host.recv room).2.calls = host.calls ++ [.recv room (host.recv room).1] := rfl

theorem calls_send (host : Host) (target : SocketAddr) (bytes : Bytes) :
    (host.send target bytes).2.calls =
      host.calls ++ [.send target bytes (host.send target bytes).1] := rfl

end Host

/-! ### Repetition -/

section Retry

variable {α : Type} {operation : Host → Except IoKind α × Host} {call : Except IoKind α → Call}

/-- Repeating an operation that makes one call is traffic and ends in the call that
had the answer. -/
theorem retry_calls
    (hop : ∀ host, (operation host).2.calls = host.calls ++ [call (operation host).1])
    (hcall : ∀ answer, (call answer).isTraffic = true) (tries : Nat) (host : Host) :
    Exchange host (retry operation tries host).2 ∧
      EndsIn (call (retry operation tries host).1) host (retry operation tries host).2 := by
  induction tries generalizing host with
  | zero => exact ⟨.of_call (hop host) (hcall _), .of_call (hop host)⟩
  | succ tries ih =>
      -- An interrupted call comes before the call that has the answer.
      have hfirst : Exchange host (operation host).2 := .of_call (hop host) (hcall _)
      unfold retry
      split
      next next heq =>
        rw [heq] at hfirst
        exact ⟨hfirst.trans (ih next).1, (ih next).2.prepend hfirst⟩
      next => exact ⟨hfirst, .of_call (hop host)⟩

end Retry

theorem readUninterrupted_calls (host : Host) (id : StreamId) (room : Nat) :
    Exchange host (host.readUninterrupted id room).2 ∧
      EndsIn (.read id room (host.readUninterrupted id room).1) host
        (host.readUninterrupted id room).2 :=
  retry_calls (fun host => host.calls_read id room) (fun _ => rfl) _ _

theorem recvUninterrupted_calls (host : Host) (room : Nat) :
    Exchange host (host.recvUninterrupted room).2 ∧
      EndsIn (.recv room (host.recvUninterrupted room).1) host (host.recvUninterrupted room).2 :=
  retry_calls (fun host => host.calls_recv room) (fun _ => rfl) _ _

theorem sendUninterrupted_calls (host : Host) (target : SocketAddr) (bytes : Bytes) :
    Exchange host (host.sendUninterrupted target bytes).2 ∧
      EndsIn (.send target bytes (host.sendUninterrupted target bytes).1) host
        (host.sendUninterrupted target bytes).2 :=
  retry_calls (fun host => host.calls_send target bytes) (fun _ => rfl) _ _

/-! ### Writing to a stream -/

/-- How many outcomes a stream has in store for writes. -/
def Host.writesLeft (host : Host) (id : StreamId) : Nat := (host.script id).writes.length

/-- An offer uses up an outcome. -/
theorem writesLeft_offer (host : Host) (id : StreamId) (bytes : Bytes) :
    (host.offer id bytes).2.writesLeft id = host.writesLeft id - 1 := by
  have hscript : (host.offer id bytes).2.script id =
      ((host.setScript id
        ⟨(host.script id).reads, (writeScript bytes.length (host.script id).writes).2⟩).script id) :=
    rfl
  have hrest : (writeScript bytes.length (host.script id).writes).2.length =
      (host.script id).writes.length - 1 := by
    unfold writeScript
    split <;> simp_all
  simp only [Host.writesLeft, hscript]
  rw [← hrest]
  by_cases hid : id.index < host.streams.length
  · simp [Host.script, Host.setScript, hid]
  · simp [Host.script, Host.setScript, StreamScript.idle, writeScript, hid]

/-- An offer for which no outcome is in store is taken whole. -/
theorem offer_of_writesLeft_eq_zero {host : Host} {id : StreamId} {bytes : Bytes}
    (h : host.writesLeft id = 0) : (host.offer id bytes).1 = .ok bytes.length := by
  have hnil : (host.script id).writes = [] := List.eq_nil_of_length_eq_zero h
  simp [Host.offer, hnil, writeScript]

/-- No offer is taken beyond its end. -/
theorem offer_le {host : Host} {id : StreamId} {bytes : Bytes} {taken : Nat}
    (h : (host.offer id bytes).1 = .ok taken) : taken ≤ bytes.length := by
  have hscript : (host.offer id bytes).1 =
      (writeScript bytes.length (host.script id).writes).1 := rfl
  rw [hscript] at h
  unfold writeScript at h
  split at h
  · cases h; exact Nat.le_refl _
  · cases h
  · cases h; exact Nat.min_le_right ..

/-- What holds of every offer, and is kept by doing one thing after another, holds of
offering in turn. -/
theorem sendWithin_induction {id : StreamId} {motive : Host → Host → Prop}
    (refl : ∀ host, motive host host) (trans : ∀ a b c, motive a b → motive b c → motive a c)
    (step : ∀ host bytes, motive host (host.offer id bytes).2) (tries : Nat) (bytes : Bytes)
    (host : Host) : motive host (sendWithin id tries bytes host).2 := by
  induction tries generalizing bytes host with
  | zero => exact refl host
  | succ tries ih =>
      have hoffer := step host bytes
      rw [sendWithin]
      split
      next => exact refl host
      next =>
        generalize host.offer id bytes = answered at hoffer ⊢
        rcases answered with ⟨answer, next⟩
        cases answer with
        | ok taken =>
            cases taken with
            | zero => exact hoffer
            | succ taken => exact trans _ _ _ hoffer (ih _ next)
        | error kind =>
            cases kind with
            | interrupted => exact trans _ _ _ hoffer (ih bytes next)
            | _ => exact hoffer

theorem exchange_sendWithin (id : StreamId) (tries : Nat) (bytes : Bytes) (host : Host) :
    Exchange host (sendWithin id tries bytes host).2 :=
  sendWithin_induction .refl (fun _ _ _ => .trans)
    (fun host bytes => .of_call (host.calls_offer id bytes) rfl) tries bytes host

@[simp] theorem sendWithin_nil (id : StreamId) (tries : Nat) (host : Host) :
    sendWithin id tries [] host = (.ok 0, host) := by
  cases tries <;> rfl

/-- What a round of offers that does not fail comes to: there was nothing to offer, the
offer would block, or what it has left is for the next round. -/
theorem sendWithin_succ {id : StreamId} {tries : Nat} {bytes : Bytes} {host : Host} {sent : Nat}
    (h : (sendWithin id (tries + 1) bytes host).1 = .ok sent) :
    (bytes = [] ∧ sent = 0) ∨
      ((host.offer id bytes).1 = .error .wouldBlock ∧ sent = 0 ∧
        (sendWithin id (tries + 1) bytes host).2 = (host.offer id bytes).2) ∨
      ∃ taken more,
        ((host.offer id bytes).1 = .ok taken ∨
          ((host.offer id bytes).1 = .error .interrupted ∧ taken = 0)) ∧
        (sendWithin id tries (bytes.drop taken) (host.offer id bytes).2).1 = .ok more ∧
        sent = taken + more ∧
        (sendWithin id (tries + 1) bytes host).2 =
          (sendWithin id tries (bytes.drop taken) (host.offer id bytes).2).2 := by
  rw [sendWithin] at h ⊢
  by_cases hempty : bytes.isEmpty = true
  · rw [if_pos hempty] at h
    cases h
    exact .inl ⟨List.isEmpty_iff.1 hempty, rfl⟩
  · rw [if_neg hempty] at h ⊢
    generalize host.offer id bytes = answered at h ⊢
    rcases answered with ⟨answer, next⟩
    cases answer with
    | ok taken =>
        cases taken with
        | zero => cases h
        | succ taken =>
            rcases hmore : (sendWithin id tries (bytes.drop (taken + 1)) next).1 with e | more
            · simp [hmore, Except.map] at h
            · simp only [hmore, Except.map, Except.ok.injEq] at h
              exact .inr (.inr ⟨taken + 1, more, .inl rfl, hmore, h.symm, rfl⟩)
    | error kind =>
        cases kind with
        | wouldBlock =>
            cases h
            exact .inr (.inl ⟨rfl, rfl, rfl⟩)
        | interrupted => exact .inr (.inr ⟨0, sent, .inr ⟨rfl, rfl⟩, h, (Nat.zero_add _).symm, rfl⟩)
        | _ => cases h

/-- Bytes are offered until all are taken, or the last call would block. -/
theorem sendWithin_ok {id : StreamId} {tries : Nat} {bytes : Bytes} {host : Host} {sent : Nat}
    (htries : host.writesLeft id < tries) (h : (sendWithin id tries bytes host).1 = .ok sent) :
    sent = bytes.length ∨
      ∃ offered, EndsIn (.write id offered (.error .wouldBlock)) host
        (sendWithin id tries bytes host).2 := by
  induction tries generalizing bytes host sent with
  | zero => omega
  | succ tries ih =>
      have hcalls := host.calls_offer id bytes
      rcases sendWithin_succ h with ⟨rfl, rfl⟩ | ⟨hblock, -, hafter⟩ |
        ⟨taken, more, htaken, hmore, rfl, hafter⟩
      · exact .inl rfl
      · rw [hafter]
        exact .inr ⟨bytes, .of_call (hblock ▸ hcalls)⟩
      · rw [hafter]
        by_cases hzero : host.writesLeft id = 0
        · -- Beyond what is in store everything is taken, so nothing is left.
          simp only [offer_of_writesLeft_eq_zero hzero, Except.ok.injEq, reduceCtorEq, false_and,
            or_false] at htaken
          subst htaken
          rw [List.drop_length, sendWithin_nil] at hmore
          cases hmore
          exact .inl rfl
        · -- The offer used up an outcome, so the rest of the tries still covers the store.
          have hfewer : (host.offer id bytes).2.writesLeft id < tries := by
            rw [writesLeft_offer]
            omega
          rcases ih hfewer hmore with hall | ⟨offered, hends⟩
          · have hle : taken ≤ bytes.length := by
              rcases htaken with htaken | ⟨-, rfl⟩
              · exact offer_le htaken
              · exact Nat.zero_le _
            rw [List.length_drop] at hall
            exact .inl (by omega)
          · exact .inr ⟨offered, hends.prepend (.of_call hcalls rfl)⟩

theorem exchange_sendBytes (id : StreamId) (bytes : Bytes) (host : Host) :
    Exchange host (sendBytes id bytes host).2 :=
  exchange_sendWithin id _ bytes host

theorem sendBytes_ok {id : StreamId} {bytes : Bytes} {host : Host} {sent : Nat}
    (h : (sendBytes id bytes host).1 = .ok sent) (hsent : sent ≠ bytes.length) :
    ∃ offered, EndsIn (.write id offered (.error .wouldBlock)) host (sendBytes id bytes host).2 :=
  (sendWithin_ok (Nat.lt_succ_self _) h).resolve_left hsent

/-! ### Framed streams -/

namespace FramedStream

theorem host_receive (stream : FramedStream) (host : Host) :
    (stream.receive host).host = (host.readUninterrupted stream.id stream.reassembly.room).2 := by
  unfold receive
  split <;> simp_all

@[simp] theorem id_receive (stream : FramedStream) (host : Host) :
    (stream.receive host).stream.id = stream.id := by
  unfold receive
  split <;> rfl

@[simp] theorem inFlight_receive (stream : FramedStream) (host : Host) :
    (stream.receive host).stream.inFlight = stream.inFlight := by
  unfold receive
  split <;> rfl

theorem exchange_receive (stream : FramedStream) (host : Host) :
    Exchange host (stream.receive host).host := by
  rw [host_receive]
  exact (readUninterrupted_calls ..).1

/-- A read is dry only because it would block. -/
theorem receive_dry {stream : FramedStream} {host : Host}
    (h : (stream.receive host).result = .ok .dry) :
    EndsIn (.read stream.id stream.reassembly.room (.error .wouldBlock)) host
      (stream.receive host).host := by
  have hends := (readUninterrupted_calls host stream.id stream.reassembly.room).2
  rw [host_receive]
  unfold receive at h
  split at h
  next heq => rwa [heq] at hends ⊢
  next => cases h
  next => cases h
  next =>
    simp only at h
    split at h <;> cases h

@[simp] theorem id_resume (stream : FramedStream) (host : Host) :
    (stream.resume host).stream.id = stream.id := by
  unfold resume
  split
  · rfl
  · split <;> rfl

theorem exchange_resume (stream : FramedStream) (host : Host) :
    Exchange host (stream.resume host).host := by
  have hsend := exchange_sendBytes stream.id stream.inFlight host
  unfold resume
  split
  next => exact .refl host
  next => split <;> simp_all

/-- A frame stays in flight only because the stream would block. -/
theorem resume_waiting {stream : FramedStream} {host : Host}
    (h : (stream.resume host).result = .ok .waiting) :
    ∃ offered, EndsIn (.write stream.id offered (.error .wouldBlock)) host
      (stream.resume host).host := by
  have hsend := @sendBytes_ok stream.id stream.inFlight host
  unfold resume at h ⊢
  split at h
  next => cases h
  next hsome =>
    rw [if_neg hsome]
    split at h
    next => cases h
    next sent rest heq =>
      rw [heq] at hsend
      by_cases hleft : (stream.inFlight.drop sent).isEmpty = true
      · simp [hleft] at h
      · exact hsend rfl (fun hall => hleft (by simp [hall]))

@[simp] theorem id_transmit (stream : FramedStream) (msg : Message) (scratch : Scratch)
    (host : Host) : (stream.transmit msg scratch host).1.stream.id = stream.id := by
  unfold transmit
  split
  · rfl
  · split
    · rfl
    · split <;> rfl

theorem exchange_transmit (stream : FramedStream) (msg : Message) (scratch : Scratch)
    (host : Host) : Exchange host (stream.transmit msg scratch host).1.host := by
  unfold transmit
  split
  next => exact .refl host
  next bytes _ _ =>
    have hsend := exchange_sendBytes stream.id bytes host
    split
    next => simp_all
    next => split <;> simp_all

/-- A message is left in flight only because the stream would block. -/
theorem transmit_waiting {stream : FramedStream} {msg : Message} {scratch : Scratch} {host : Host}
    (h : (stream.transmit msg scratch host).1.result = .ok .waiting) :
    ∃ offered, EndsIn (.write stream.id offered (.error .wouldBlock)) host
      (stream.transmit msg scratch host).1.host := by
  unfold transmit at h ⊢
  split at h
  next => cases h
  next bytes _ _ =>
    have hsend := @sendBytes_ok stream.id bytes host
    split at h
    next => cases h
    next sent rest heq =>
      rw [heq] at hsend
      by_cases hall : sent = bytes.length
      · simp [hall] at h
      · simpa [heq, hall] using hsend rfl hall

end FramedStream

/-! ### Datagrams -/

theorem Datagram.ofBytes_ne_absent (sender : SocketAddr) (bytes : Bytes) :
    (Datagram.ofBytes sender bytes).val ≠ .absent := by
  unfold Datagram.ofBytes
  split
  next => simp
  next =>
    split
    next => simp
    next => split <;> simp

theorem exchange_recvDatagram (host : Host) : Exchange host (recvDatagram host).2 := by
  have hrecv := (recvUninterrupted_calls host datagramRoom).1
  unfold recvDatagram
  split <;> simp_all [Exchange]

/-- No datagram is answered only because a receive would block. -/
theorem recvDatagram_absent {host : Host} (h : (recvDatagram host).1 = .ok .absent) :
    EndsIn (.recv datagramRoom (.error .wouldBlock)) host (recvDatagram host).2 := by
  have hends := (recvUninterrupted_calls host datagramRoom).2
  unfold recvDatagram at h ⊢
  split at h
  next heq => rwa [heq] at hends
  next => cases h
  next sender bytes rest heq =>
    simp only [Except.ok.injEq] at h
    exact absurd h (Datagram.ofBytes_ne_absent sender bytes)

theorem exchange_sendDatagram (msg : Message) (target : SocketAddr) (scratch : Scratch)
    (host : Host) : Exchange host (sendDatagram msg target scratch host).2.2 := by
  unfold sendDatagram
  split
  next => exact .refl host
  next bytes _ _ =>
    have hsend := (sendUninterrupted_calls host target bytes).1
    split
    next => exact .refl host
    next =>
      split
      next heq =>
        rw [heq] at hsend
        simp only
        split
        · exact hsend
        · exact hsend.trans (.of_calls_eq rfl)
      next heq => rwa [heq] at hsend
      next heq => rwa [heq] at hsend

/-- A datagram has to wait only because a send would block. -/
theorem sendDatagram_waiting {msg : Message} {target : SocketAddr} {scratch : Scratch} {host : Host}
    (h : (sendDatagram msg target scratch host).1 = .ok .waiting) :
    ∃ bytes, EndsIn (.send target bytes (.error .wouldBlock)) host
      (sendDatagram msg target scratch host).2.2 := by
  unfold sendDatagram at h ⊢
  split at h
  next => cases h
  next bytes _ _ =>
    have hends := (sendUninterrupted_calls host target bytes).2
    split at h
    next => cases h
    next hfits =>
      split at h
      next => cases h
      next rest heq =>
        rw [heq] at hends
        refine ⟨bytes, ?_⟩
        simpa [hfits, heq] using hends
      next => cases h

/-! ### Streams in existence -/

/-- The streams of the connections that wait to be accepted. -/
def Host.waiting (host : Host) : List StreamId :=
  host.arrivals.filterMap fun
    | .connection id _ => some id
    | .fail _ => none

/-- The connections in store are different streams, and all of them exist. -/
structure Host.Orderly (host : Host) : Prop where
  nodup : host.waiting.Nodup
  known : ∀ id ∈ host.waiting, id.index < host.streams.length

/-- Between two states of the system no stream has come into being, and none has been
accepted. -/
structure SameStreams (before after : Host) : Prop where
  waiting : after.waiting = before.waiting
  count : after.streams.length = before.streams.length

namespace SameStreams

variable {a b c : Host}

theorem refl (a : Host) : SameStreams a a := ⟨rfl, rfl⟩

theorem trans (hab : SameStreams a b) (hbc : SameStreams b c) : SameStreams a c :=
  ⟨hbc.waiting.trans hab.waiting, hbc.count.trans hab.count⟩

end SameStreams

theorem sameStreams_read (host : Host) (id : StreamId) (room : Nat) :
    SameStreams host (host.read id room).2 := ⟨rfl, List.length_set⟩

theorem sameStreams_offer (host : Host) (id : StreamId) (bytes : Bytes) :
    SameStreams host (host.offer id bytes).2 := ⟨rfl, List.length_set⟩

theorem sameStreams_register {host next : Host} {source : Source} {token : Nat}
    {interest : Interest} {failure : Option IoKind}
    (h : host.register source token interest = (failure, next)) : SameStreams host next := by
  have hnext : next = (host.register source token interest).2 := congrArg Prod.snd h.symm
  subst hnext
  exact ⟨rfl, rfl⟩

theorem sameStreams_reregister {host next : Host} {source : Source} {token : Nat}
    {interest : Interest} {failure : Option IoKind}
    (h : host.reregister source token interest = (failure, next)) : SameStreams host next := by
  have hnext : next = (host.reregister source token interest).2 := congrArg Prod.snd h.symm
  subst hnext
  exact ⟨rfl, rfl⟩

theorem sameStreams_sendWithin (id : StreamId) (tries : Nat) (bytes : Bytes) (host : Host) :
    SameStreams host (sendWithin id tries bytes host).2 :=
  sendWithin_induction .refl (fun _ _ _ => .trans) (fun host => sameStreams_offer host id) tries
    bytes host

theorem sameStreams_receive (stream : FramedStream) (host : Host) :
    SameStreams host (stream.receive host).host := by
  rw [FramedStream.host_receive]
  exact retry_induction (fun host => sameStreams_read host _ _) (fun _ _ _ => .trans) _ host

theorem sameStreams_resume (stream : FramedStream) (host : Host) :
    SameStreams host (stream.resume host).host := by
  have hsend := sameStreams_sendWithin stream.id ((host.script stream.id).writes.length + 1)
    stream.inFlight host
  unfold FramedStream.resume
  split
  next => exact .refl host
  next => split <;> simp_all [sendBytes]

theorem sameStreams_transmit (stream : FramedStream) (msg : Message) (scratch : Scratch)
    (host : Host) : SameStreams host (stream.transmit msg scratch host).1.host := by
  unfold FramedStream.transmit
  split
  next => exact .refl host
  next bytes _ _ =>
    have hsend : SameStreams host (sendBytes stream.id bytes host).2 :=
      sameStreams_sendWithin stream.id _ bytes host
    split
    next heq => rwa [heq] at hsend
    next heq =>
      rw [heq] at hsend
      split <;> exact hsend

theorem sameStreams_recvDatagram (host : Host) : SameStreams host (recvDatagram host).2 := by
  have hrecv : SameStreams host (host.recvUninterrupted datagramRoom).2 :=
    retry_induction (fun host => ⟨rfl, rfl⟩) (fun _ _ _ => .trans) _ host
  unfold recvDatagram
  split
  next heq => rwa [heq] at hrecv
  next heq => rwa [heq] at hrecv
  next heq => rw [heq] at hrecv; exact ⟨hrecv.waiting, hrecv.count⟩

theorem sameStreams_sendDatagram (msg : Message) (target : SocketAddr) (scratch : Scratch)
    (host : Host) : SameStreams host (sendDatagram msg target scratch host).2.2 := by
  unfold sendDatagram
  split
  next => exact .refl host
  next bytes _ _ =>
    have hsend : SameStreams host (host.sendUninterrupted target bytes).2 :=
      retry_induction (fun host => ⟨rfl, rfl⟩) (fun _ _ _ => .trans) _ host
    split
    next => exact .refl host
    next =>
      split
      next heq =>
        rw [heq] at hsend
        simp only
        split
        · exact hsend
        · exact ⟨hsend.waiting, hsend.count⟩
      next heq => rwa [heq] at hsend
      next heq => rwa [heq] at hsend

/-- What an accept takes off the store. -/
theorem accept_ok {host next : Host} {id : StreamId} {addr : SocketAddr}
    (h : host.accept = (.ok (id, addr), next)) :
    host.waiting = id :: next.waiting ∧ next.streams = host.streams ∧
      next.calls = host.calls ++ [.accept (.ok id)] := by
  unfold Host.accept at h
  cases harrivals : host.arrivals with
  | nil => simp [harrivals, acceptScript] at h
  | cons arrival rest =>
      cases arrival with
      | fail kind => simp [harrivals, acceptScript] at h
      | connection other addr' =>
          simp only [harrivals, acceptScript, Prod.mk.injEq, Except.ok.injEq] at h
          obtain ⟨⟨rfl, rfl⟩, rfl⟩ := h
          exact ⟨by simp [Host.waiting, harrivals, Host.record], rfl, rfl⟩

/-- A failing accept takes no stream off the store. -/
theorem accept_error {host next : Host} {kind : IoKind} (h : host.accept = (.error kind, next)) :
    SameStreams host next ∧ next.calls = host.calls ++ [.accept (.error kind)] := by
  unfold Host.accept at h
  cases harrivals : host.arrivals with
  | nil =>
      simp only [harrivals, acceptScript, Prod.mk.injEq, Except.error.injEq] at h
      obtain ⟨rfl, rfl⟩ := h
      exact ⟨⟨by simp [Host.waiting, harrivals, Host.record], rfl⟩, rfl⟩
  | cons arrival rest =>
      cases arrival with
      | connection other addr' => simp [harrivals, acceptScript] at h
      | fail kind' =>
          simp only [harrivals, acceptScript, Prod.mk.injEq, Except.error.injEq] at h
          obtain ⟨rfl, rfl⟩ := h
          exact ⟨⟨by simp [Host.waiting, harrivals, Host.record], rfl⟩, rfl⟩

/-! ### New streams -/

/-- Between two states of the system streams may have come into being: those that wait to
be accepted are the ones from before and new ones. -/
structure MoreStreams (before after : Host) : Prop where
  orderly : before.Orderly → after.Orderly
  count : before.streams.length ≤ after.streams.length
  waiting : ∀ id ∈ after.waiting, id ∈ before.waiting ∨ before.streams.length ≤ id.index

namespace MoreStreams

variable {a b c : Host}

theorem refl (a : Host) : MoreStreams a a := ⟨id, Nat.le_refl _, fun _ h => .inl h⟩

theorem trans (hab : MoreStreams a b) (hbc : MoreStreams b c) : MoreStreams a c where
  orderly := hbc.orderly ∘ hab.orderly
  count := Nat.le_trans hab.count hbc.count
  waiting := by
    intro id hid
    rcases hbc.waiting id hid with hid | hid
    · exact hab.waiting id hid
    · exact .inr (Nat.le_trans hab.count hid)

/-- What nobody can hold yet, nobody could hold before. -/
theorem beyond (h : MoreStreams a b) {id : StreamId}
    (hid : id ∈ b.waiting ∨ b.streams.length ≤ id.index) :
    id ∈ a.waiting ∨ a.streams.length ≤ id.index :=
  hid.elim (h.waiting id) fun hlength => .inr (Nat.le_trans h.count hlength)

end MoreStreams

theorem SameStreams.more {a b : Host} (h : SameStreams a b) : MoreStreams a b := by
  refine ⟨fun ha => ⟨h.waiting ▸ ha.nodup, ?_⟩, Nat.le_of_eq h.count.symm, fun id hid => ?_⟩
  · rw [h.waiting, h.count]
    exact ha.known
  · exact .inl (h.waiting ▸ hid)

/-- A connection comes into store under a number that no stream has. -/
theorem moreStreams_supplyArrival (host : Host) (arrival : NewArrival) :
    MoreStreams host (host.supplyArrival arrival) := by
  cases arrival with
  | fail kind =>
      have hsame : SameStreams host (host.supplyArrival (.fail kind)) :=
        ⟨by simp [Host.supplyArrival, Host.waiting], rfl⟩
      exact hsame.more
  | connection addr script =>
      have hwaiting : (host.supplyArrival (.connection addr script)).waiting =
          host.waiting ++ [⟨host.streams.length⟩] := by
        simp [Host.supplyArrival, Host.waiting]
      have hcount : (host.supplyArrival (.connection addr script)).streams.length =
          host.streams.length + 1 := by
        simp [Host.supplyArrival]
      refine ⟨fun h => ⟨?_, ?_⟩, by omega, ?_⟩
      · rw [hwaiting, List.nodup_append]
        refine ⟨h.nodup, List.pairwise_singleton .., ?_⟩
        intro id hid new hnew heq
        have hlt := h.known id hid
        rw [heq, List.mem_singleton.1 hnew] at hlt
        exact absurd hlt (Nat.lt_irrefl _)
      · intro id hid
        rw [hwaiting, List.mem_append, List.mem_singleton] at hid
        rw [hcount]
        rcases hid with hid | rfl
        · exact Nat.lt_succ_of_lt (h.known id hid)
        · exact Nat.lt_succ_self _
      · intro id hid
        rw [hwaiting, List.mem_append, List.mem_singleton] at hid
        rcases hid with hid | rfl
        · exact .inl hid
        · exact .inr (Nat.le_refl _)

/-- An accept may take a stream off the store, and none comes into being. -/
theorem moreStreams_accept {host next : Host} {answer : Except IoKind (StreamId × SocketAddr)}
    (h : host.accept = (answer, next)) : MoreStreams host next := by
  cases answer with
  | error kind => exact (accept_error h).1.more
  | ok accepted =>
      obtain ⟨hwaiting, hstreams, -⟩ := accept_ok h
      refine ⟨fun horderly => ⟨?_, fun id hid => ?_⟩, Nat.le_of_eq (by rw [hstreams]),
        fun id hid => .inl ?_⟩
      · exact (List.nodup_cons.1 (hwaiting ▸ horderly.nodup)).2
      · rw [hstreams]
        exact horderly.known id (hwaiting ▸ List.mem_cons_of_mem _ hid)
      · exact hwaiting ▸ List.mem_cons_of_mem _ hid

theorem moreStreams_supply (host : Host) (supply : Supply) :
    MoreStreams host (host.supply supply) := by
  have harrivals : ∀ (arrivals : List NewArrival) (host : Host),
      MoreStreams host (arrivals.foldl Host.supplyArrival host) := by
    intro arrivals
    induction arrivals with
    | nil => exact .refl
    | cons arrival arrivals ih =>
        exact fun host => (moreStreams_supplyArrival host arrival).trans (ih _)
  have hstreams : ∀ (streams : List (StreamId × StreamScript)) (host : Host),
      SameStreams host (streams.foldl Host.supplyStream host) := by
    intro streams
    induction streams with
    | nil => exact .refl
    | cons stream streams ih =>
        intro host
        have hstep : SameStreams host (host.supplyStream stream) := ⟨rfl, List.length_set⟩
        exact hstep.trans (ih _)
  have hrest := (harrivals supply.arrivals host).trans (hstreams supply.streams _).more
  exact ⟨fun h => ⟨(hrest.orderly h).nodup, (hrest.orderly h).known⟩, hrest.count, hrest.waiting⟩

end Rendezvous
