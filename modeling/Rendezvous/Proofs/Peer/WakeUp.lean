import Rendezvous.Proofs.Peer.Observed
import Rendezvous.Proofs.Peer.Session

/-!
# Rendezvous.Proofs.Peer.WakeUp

**When a client's queued messages will be asked for.** A client that polls with
something to write relies on the poller to tell it when it can. For the packet socket
it always may (`report_due_iff`). For the control connection it may once the loop has
polled while the connection was idle, because from then on it watches for writing
anew whenever something is queued. Before that, the connection is watched for
writing all along, and readiness forgotten for lack of output is not reported again:
`report_due_iff_hasty` is a run that ends so.

* `Quiet` is what most stages do: they disturb neither write side.
* `Settled` is the invariant at the loop's head, `Polling` what holds at a poll, and
  `Ready` and `HalfReady` what holds between the poll and the work.
* `Armed` and `Tended` are the two ways in which the control connection is looked
  after: watched from the start on, or watched on demand.
-/

namespace Rendezvous
namespace Client

/-! ### Stages that disturb neither write side -/

/-- Between two states of a client no readiness for writing was forgotten and
nothing to be written has gone. -/
structure Quiet (c c' : Client) : Prop where
  connected : c'.connected = c.connected
  stream : c'.control.id = c.control.id
  inFlight : c'.control.inFlight = c.control.inFlight
  controlLatch : c.controlLatch.writable = true → c'.controlLatch.writable = true
  packetLatch : c.packetLatch.writable = true → c'.packetLatch.writable = true
  controlWatch : c'.controlWatch = c.controlWatch
  packetWatch : c'.packetWatch = c.packetWatch
  session : c.session.Grows c'.session
  exchange : Exchange c.host c'.host

namespace Quiet

variable {a b c : Client}

theorem refl (c : Client) : Quiet c c :=
  ⟨rfl, rfl, rfl, id, id, rfl, rfl, .refl _, .refl _⟩

theorem trans (hab : Quiet a b) (hbc : Quiet b c) : Quiet a c where
  connected := hbc.connected.trans hab.connected
  stream := hbc.stream.trans hab.stream
  inFlight := hbc.inFlight.trans hab.inFlight
  controlLatch := hbc.controlLatch ∘ hab.controlLatch
  packetLatch := hbc.packetLatch ∘ hab.packetLatch
  controlWatch := hbc.controlWatch.trans hab.controlWatch
  packetWatch := hbc.packetWatch.trans hab.packetWatch
  session := hab.session.trans hbc.session
  exchange := hab.exchange.trans hbc.exchange

/-- What is done one by one is quiet if each piece is. -/
theorem foldl {α : Type} {step : Client → α → Client} (hstep : ∀ c x, Quiet c (step c x))
    (c : Client) (xs : List α) : Quiet c (xs.foldl step c) := by
  induction xs generalizing c with
  | nil => exact .refl c
  | cons x xs ih => exact (hstep c x).trans (ih _)

theorem control (h : Quiet a b) : a.controlSight.Kept b.controlSight where
  latched := h.controlLatch
  watch := h.controlWatch
  registered := by
    show registration (.stream b.control.id) _ = registration (.stream a.control.id) _
    rw [h.stream, h.exchange.registration]
  output := by
    show a.controlHasOutput = true → b.controlHasOutput = true
    have hsession : a.session.hasControl = true → b.session.hasControl = true := by
      simp only [Session.hasControl, Bool.not_eq_true']
      exact isEmpty_eq_false_mono h.session.control
    simp only [controlHasOutput, FramedStream.hasInFlight, h.connected, h.inFlight, Bool.or_eq_true]
    exact fun houtput => houtput.imp_left fun h => h.imp_right hsession

theorem packets (h : Quiet a b) : a.packetSight.Kept b.packetSight where
  latched := h.packetLatch
  watch := h.packetWatch
  registered := h.exchange.registration .packetSocket
  output := by
    show a.packetHasOutput = true → b.packetHasOutput = true
    simp only [packetHasOutput, Bool.not_eq_true']
    exact isEmpty_eq_false_mono h.session.packets

end Quiet

theorem quiet_note (c : Client) (level : Level) (text : String) : Quiet c (c.note level text) :=
  { Quiet.refl c with exchange := .of_calls_eq rfl }

theorem quiet_withSession {c : Client} {session : Logged Session}
    (h : c.session.Grows session.val) : Quiet c (c.withSession session) :=
  { Quiet.refl c with session := h, exchange := .of_calls_eq rfl }

theorem quiet_prepare (c : Client) (turn : Turn) :
    Quiet c (({ c with host := c.host.supply turn.supply } : Client).withSession
      (c.session.tick (c.host.supply turn.supply).clock)) :=
  { Quiet.refl c with
    session := Session.grows_tick _ _
    exchange := .of_calls_eq (c.host.calls_supply turn.supply) }

theorem quiet_poll (c : Client) (timeout : Duration) (turn : Turn) :
    Quiet c { c with host := (c.host.poll timeout turn).2 } :=
  { Quiet.refl c with exchange := .of_call (c.host.calls_poll timeout turn) rfl }

theorem quiet_latch (c : Client) (event : Event) : Quiet c (c.latch event) := by
  unfold latch
  split
  · exact { Quiet.refl c with controlLatch := fun h => by simp [Latch.merge, h] }
  · split
    · exact { Quiet.refl c with packetLatch := fun h => by simp [Latch.merge, h] }
    · exact quiet_note c _ _

theorem quiet_actOnDecoded (c : Client) : Quiet c c.actOnDecoded := by
  have hreceive : ∀ (c : Client) (msg : Message),
      Quiet c ((c.note .debug s!"Received {msg} from coordinator").withSession
        (c.session.onControl msg)) := fun c msg =>
    (quiet_note c _ _).trans (quiet_withSession (Session.grows_onControl _ _))
  have hclear : Quiet c { c with decoded := [] } := { Quiet.refl c with exchange := .refl _ }
  exact hclear.trans (.foldl hreceive _ c.decoded)

theorem quiet_noteSkipped (c : Client) (skipped : Nat) : Quiet c (c.noteSkipped skipped) := by
  unfold noteSkipped
  split
  · exact .refl c
  · exact quiet_note c _ _

theorem quiet_readControl (c : Client) : Quiet c c.readControl.state := by
  have hread : Quiet c { c with
      host := (c.control.receive c.host).host
      control := (c.control.receive c.host).stream
      decoded := c.decoded ++ (c.control.receive c.host).frames } :=
    { Quiet.refl c with
      stream := by simp
      inFlight := by simp
      exchange := c.control.exchange_receive c.host }
  unfold readControl
  simp only
  split
  · exact hread
  · refine .trans ?_ ((quiet_noteSkipped _ _).trans (quiet_actOnDecoded _))
    exact { hread with controlLatch := fun h => h }
  · exact hread.trans ((quiet_note _ _ _).trans
      ((quiet_noteSkipped _ _).trans (quiet_actOnDecoded _)))

theorem quiet_receivePacket (c : Client) (now : Instant) : Quiet c (c.receivePacket now).state := by
  have hrecv : Quiet c { c with host := (recvDatagram c.host).2 } :=
    { Quiet.refl c with exchange := exchange_recvDatagram c.host }
  unfold receivePacket
  split
  · exact .refl c
  · split
    next heq => rw [heq] at hrecv; exact hrecv
    next heq => rw [heq] at hrecv; exact { hrecv with packetLatch := fun h => h }
    next heq => rw [heq] at hrecv; exact hrecv
    next heq =>
      rw [heq] at hrecv
      exact hrecv.trans ((quiet_note _ _ _).trans
        (quiet_withSession (Session.grows_onPacket _ _ _ _)))

/-! ### Stages that watch -/

theorem watchControl_going {c : Client} (h : c.watchControl.failure = none) :
    c.controlSight.Rewatched tokenOfControl c.watchControl.state.controlSight ∧
      c.packetSight.Kept c.watchControl.state.packetSight ∧
        c.watchControl.state.connected = c.connected := by
  unfold watchControl at h ⊢
  simp only at h ⊢
  by_cases hsame : Interest.onDemand c.controlHasOutput = c.controlWatch
  · rw [if_pos hsame]
    exact ⟨⟨rfl, rfl, hsame.symm, (if_pos rfl).symm⟩, .refl _, rfl⟩
  · rw [if_neg hsame] at h ⊢
    split at h
    next => cases h
    next host heq =>
      refine ⟨⟨rfl, rfl, rfl, ?_⟩, ⟨id, rfl, ?_, id⟩, rfl⟩
      · simp [controlSight, registration_reregister heq, hsame]
      · simp [packetSight, registration_reregister heq]

theorem watchPackets_going {c : Client} (h : c.watchPackets.failure = none) :
    c.packetSight.Rewatched tokenOfClientPackets c.watchPackets.state.packetSight ∧
      c.controlSight.Kept c.watchPackets.state.controlSight ∧
        c.watchPackets.state.controlHasOutput = c.controlHasOutput ∧
          c.watchPackets.state.connected = c.connected := by
  unfold watchPackets at h ⊢
  simp only at h ⊢
  by_cases hsame : Interest.onDemand c.packetHasOutput = c.packetWatch
  · rw [if_pos hsame]
    exact ⟨⟨rfl, rfl, hsame.symm, (if_pos rfl).symm⟩, .refl _, rfl, rfl⟩
  · rw [if_neg hsame] at h ⊢
    split at h
    next => cases h
    next host heq =>
      refine ⟨⟨rfl, rfl, rfl, ?_⟩, ⟨id, rfl, ?_, id⟩, rfl, rfl⟩
      · simp [packetSight, registration_reregister heq, hsame]
      · simp [controlSight, registration_reregister heq]

/-! ### Finishing the connect -/

theorem ensureConnected_of_connected {c : Client} (h : c.connected = true) :
    c.ensureConnected = .going c := by
  simp [ensureConnected, h]

/-- Finishing the connect asks about the stream and may clear the latches of the control
connection. -/
theorem ensureConnected_frame (c : Client) :
    c.ensureConnected.state.host.calls = c.host.calls ∧
      c.ensureConnected.state.control = c.control ∧
        c.ensureConnected.state.controlWatch = c.controlWatch ∧
          c.ensureConnected.state.packetLatch = c.packetLatch ∧
            c.ensureConnected.state.packetWatch = c.packetWatch ∧
              c.ensureConnected.state.session = c.session := by
  unfold ensureConnected
  split
  · exact ⟨rfl, rfl, rfl, rfl, rfl, rfl⟩
  · unfold checkConnected
    have herror : c.host.takeError.2.calls = c.host.calls := rfl
    split
    next heq =>
      rw [heq] at herror
      exact ⟨herror, rfl, rfl, rfl, rfl, rfl⟩
    next host heq =>
      rw [heq] at herror
      have hfar : host.farAddr.2.calls = c.host.calls := herror
      split <;> next heq =>
        rw [heq] at hfar
        exact ⟨hfar, rfl, rfl, rfl, rfl, rfl⟩

/-- Nothing that matters for writing changes but the latches of the control connection. -/
theorem ensureConnected_sights (c : Client) :
    c.controlSight.Steady c.ensureConnected.state.controlSight ∧
      c.packetSight.Kept c.ensureConnected.state.packetSight := by
  obtain ⟨hcalls, hcontrol, hwatch, hlatch, hpackets, hsession⟩ := ensureConnected_frame c
  refine ⟨⟨hwatch, ?_⟩, ⟨?_, hpackets, ?_, ?_⟩⟩ <;>
    simp [controlSight, packetSight, packetHasOutput, hcalls, hcontrol, hlatch, hsession]

/-! ### Stages that write -/

/-- Between two states of a client something was written to the control connection,
and readiness was forgotten only because that would block. -/
structure Wrote (c c' : Client) : Prop where
  connected : c'.connected = c.connected
  stream : c'.control.id = c.control.id
  controlLatch : c.controlLatch.writable = true → c'.controlLatch.writable = false →
    ∃ offered, EndsIn (.write c.control.id offered (.error .wouldBlock)) c.host c'.host
  packetLatch : c'.packetLatch = c.packetLatch
  controlWatch : c'.controlWatch = c.controlWatch
  packetWatch : c'.packetWatch = c.packetWatch
  packetQueue : c'.session.packetQueue = c.session.packetQueue
  exchange : Exchange c.host c'.host

theorem wrote_settleWrite {c : Client} {written : FramedStream.Written}
    (hstream : written.stream.id = c.control.id) (hexchange : Exchange c.host written.host)
    (hwaiting : written.result = .ok .waiting →
      ∃ offered, EndsIn (.write c.control.id offered (.error .wouldBlock)) c.host written.host) :
    Wrote c (c.settleWrite written).state := by
  unfold settleWrite
  simp only
  split
  next => exact ⟨rfl, hstream, fun hset hclear => by simp_all, rfl, rfl, rfl, rfl, hexchange⟩
  next hresult => exact ⟨rfl, hstream, fun _ _ => hwaiting hresult, rfl, rfl, rfl, rfl, hexchange⟩
  next => exact ⟨rfl, hstream, fun hset hclear => by simp_all, rfl, rfl, rfl, rfl, hexchange⟩

/-- Writing goes through the stream whenever there is something to write. -/
theorem wrote_writeControl {c : Client} (hconnected : c.connected = true)
    (houtput : c.controlHasOutput = true) : Wrote c c.writeControl.state := by
  unfold writeControl
  by_cases hflight : c.control.hasInFlight = true
  · rw [if_pos hflight]
    exact wrote_settleWrite (by simp) (c.control.exchange_resume c.host)
      FramedStream.resume_waiting
  · rw [if_neg hflight]
    cases hqueue : c.session.controlQueue with
    | nil => simp [controlHasOutput, hconnected, hflight, Session.hasControl, hqueue] at houtput
    | cons msg rest =>
        simp only [Session.takeControl, hqueue, List.head?_cons, List.tail_cons]
        have hbefore : Exchange c.host
            (c.host.note .debug s!"Sending {msg} to coordinator") := .of_calls_eq rfl
        have hwrote := wrote_settleWrite
          (c := { ({ c with session := { c.session with controlQueue := rest } } : Client).note
              .debug s!"Sending {msg} to coordinator" with
            scratch := (c.control.transmit msg c.scratch
              (c.host.note .debug s!"Sending {msg} to coordinator")).2 })
          (c.control.id_transmit msg c.scratch _) (c.control.exchange_transmit msg c.scratch _)
          FramedStream.transmit_waiting
        exact
          { hwrote with
            controlLatch := fun hset hclear =>
              (hwrote.controlLatch hset hclear).imp fun _ hends => hends.prepend hbefore
            exchange := hbefore.trans hwrote.exchange }

/-- With nothing to write, readiness of the control connection is forgotten. -/
theorem writeControl_of_idle {c : Client} (hconnected : c.connected = true)
    (houtput : c.controlHasOutput = false) :
    c.writeControl.state = { c with controlLatch := c.controlLatch.withoutWrite } := by
  simp only [controlHasOutput, hconnected, Session.hasControl, Bool.or_eq_false_iff,
    Bool.not_eq_false', Bool.not_true, true_and, List.isEmpty_iff] at houtput
  simp [writeControl, houtput, Session.takeControl]

theorem Wrote.control {c c' : Client} (h : Wrote c c') (hlatch : c.controlLatch.writable = true) :
    c.controlSight.Written (.write c'.control.id) c'.controlSight where
  latched := hlatch
  watch := h.controlWatch
  registered := by
    show registration (.stream c'.control.id) _ = registration (.stream c.control.id) _
    rw [h.stream, h.exchange.registration]
  cleared := by
    intro hclear _
    obtain ⟨offered, hends⟩ := h.controlLatch hlatch hclear
    exact endsDeclined_of_endsIn hends (by rw [h.stream]; rfl)

theorem Wrote.packets {c c' : Client} (h : Wrote c c') : c.packetSight.Kept c'.packetSight where
  latched := by simp [packetSight, h.packetLatch]
  watch := h.packetWatch
  registered := h.exchange.registration .packetSocket
  output := by simp [packetSight, packetHasOutput, h.packetQueue]

/-- Serving the control connection is a write in the sense of its write side, and
does not touch the packet socket's. -/
theorem writeControl_written {c : Client} (hconnected : c.connected = true)
    (hlatch : c.controlLatch.writable = true) :
    c.controlSight.Written (.write c.writeControl.state.control.id)
        c.writeControl.state.controlSight ∧
      c.packetSight.Kept c.writeControl.state.packetSight ∧
        c.writeControl.state.connected = true := by
  cases houtput : c.controlHasOutput with
  | true =>
      have hwrote := wrote_writeControl hconnected houtput
      exact ⟨hwrote.control hlatch, hwrote.packets, hwrote.connected.trans hconnected⟩
  | false =>
      -- The latch is cleared without a write; that is harmless only while nothing is queued.
      rw [writeControl_of_idle hconnected houtput]
      have hidle : c.controlSight.output = false := houtput
      exact ⟨⟨hlatch, rfl, rfl, fun _ h => by simp [hidle] at h⟩, .refl _, hconnected⟩

/-- Sending a datagram is a write in the sense of the packet socket's write side, and
does not touch the control connection's. -/
theorem sendPacket_written {c : Client} (hlatch : c.packetLatch.writable = true) :
    c.controlSight.Kept c.sendPacket.state.controlSight ∧
      c.packetSight.Written .send c.sendPacket.state.packetSight ∧
        c.sendPacket.state.connected = c.connected := by
  unfold sendPacket
  simp only [hlatch, Bool.not_true, Bool.false_eq_true, if_false]
  split
  next hqueue =>
    have hidle : c.packetSight.output = false := by simp [packetSight, packetHasOutput, hqueue]
    exact ⟨.refl _, ⟨hlatch, rfl, rfl, fun _ h => by simp [hidle] at h⟩, rfl⟩
  next msg target rest hqueue =>
    have hexchange := exchange_sendDatagram msg target c.scratch c.host
    have hwaiting := @sendDatagram_waiting msg target c.scratch c.host
    split
    next heq =>
      rw [heq] at hexchange
      refine ⟨⟨id, rfl, hexchange.registration _, id⟩,
        ⟨hlatch, rfl, hexchange.registration _, ?_⟩, rfl⟩
      exact fun hclear => by simp [packetSight, hlatch] at hclear
    next heq =>
      rw [heq] at hexchange
      refine ⟨⟨id, rfl, hexchange.registration _, id⟩,
        ⟨hlatch, rfl, hexchange.registration _, ?_⟩, rfl⟩
      exact fun hclear => by simp [packetSight, note, hlatch] at hclear
    next heq =>
      rw [heq] at hexchange hwaiting
      refine ⟨⟨id, rfl, hexchange.registration _, id⟩,
        ⟨hlatch, rfl, hexchange.registration _, ?_⟩, rfl⟩
      obtain ⟨bytes, hends⟩ := hwaiting rfl
      exact fun _ _ => endsDeclined_of_endsIn hends rfl

/-! ### The start -/

/-- The calls that open a packet socket next to a control connection. -/
theorem openPacketSocket_ok {config : PeerConfig} {near : NearEnds} {control : StreamId}
    {host next : Host} {addrs : SocketV4 × SocketV4}
    (h : openPacketSocket config near control host = (.ok addrs, next)) :
    next.calls = host.calls ++
      [.register (.stream control) tokenOfControl .readWrite none, .bindUdp (packetBind config),
        .register .packetSocket tokenOfClientPackets .read none] := by
  have hcontrol := host.calls_register (.stream control) tokenOfControl .readWrite
  unfold openPacketSocket at h
  split at h
  next => simp at h
  next afterControl heq =>
    rw [heq] at hcontrol
    split at h
    next => simp at h
    next afterBind hbind =>
      have hbound : afterBind.calls = afterControl.calls ++ [.bindUdp (packetBind config)] :=
        congrArg (fun answer => answer.2.calls) hbind.symm
      have hpackets := afterBind.calls_register .packetSocket tokenOfClientPackets .read
      split at h
      next => simp at h
      next afterPackets heq' =>
        rw [heq'] at hpackets
        have hlast : next = afterPackets := by
          split at h
          · simp at h
          · split at h
            · simp at h
            · exact (Prod.mk.inj h).2.symm
        simp only at hcontrol hpackets
        simp [hlast, hpackets, hbound, hcontrol]

/-- A client starts with a fresh control connection watched for writing, as the connect has
not finished, the packet socket watched for reading, and a fresh session. -/
theorem start_ok {config : PeerConfig} {near : NearEnds} {host : Host} {c : Client}
    (h : Client.start config near host = .ok c) :
    c.controlWatch = .readWrite ∧ c.packetWatch = .read ∧
      c.control = .ofStream ⟨host.streams.length⟩ ∧ c.session.controlQueue = [] ∧
        c.host.calls = host.calls ++
          [.dial config.controlAddr,
            .register (.stream c.control.id) tokenOfControl .readWrite none,
            .bindUdp (packetBind config),
            .register .packetSocket tokenOfClientPackets .read none] := by
  unfold Client.start at h
  simp only [bind, Except.bind, pure, Except.pure, throw, throwThe, MonadExceptOf.throw] at h
  split at h
  next => cases h
  next =>
    split at h
    next => cases h
    next control afterDial hdial =>
      have hdialled : control = ⟨host.streams.length⟩ ∧
          afterDial.calls = host.calls ++ [.dial config.controlAddr] := by
        unfold Host.dial at hdial
        simp only at hdial
        split at hdial
        · cases hdial
        · cases hdial
          exact ⟨rfl, rfl⟩
      split at h
      next => cases h
      next controlLocal announced afterOpen hopen =>
        have hopened := openPacketSocket_ok hopen
        cases h
        refine ⟨rfl, rfl, congrArg FramedStream.ofStream hdialled.1, rfl, hopened.trans ?_⟩
        simp [hdialled.2, FramedStream.ofStream]

/-! ### The invariant -/

namespace Observed

/-- The control connection has been watched for writing from the start on. -/
structure Armed (o : Observed) : Prop where
  idled : o.idled = false
  watch : o.client.controlWatch = .readWrite
  registered : o.client.controlSight.registered = some (tokenOfControl, .readWrite)
  once : WatchedOnce o.control

/-- The control connection is connected and covered. -/
structure Tended (o : Observed) : Prop where
  connected : o.client.connected = true
  sound : Sound tokenOfControl o.client.controlSight o.control

/-- What holds after each stage of the loop that comes after a poll, and so at the
loop's head: the packet socket is covered, and so is the control connection once the
loop has polled while it was idle. -/
structure Settled (o : Observed) : Prop where
  packets : Sound tokenOfClientPackets o.client.packetSight o.packets
  control : o.Armed ∨ (o.idled = true ∧ o.Tended)

/-- What holds at a poll. -/
structure Polling (o : Observed) : Prop where
  packets : Sound tokenOfClientPackets o.client.packetSight o.packets
  packetsFitted : o.client.packetSight.Fitted
  control : (o.Armed ∧ o.client.controlHasOutput = true) ∨
    (o.Tended ∧ o.client.controlSight.Fitted ∧
      (o.client.controlHasOutput = true → o.idled = true))

theorem Armed.next {o : Observed} {c : Client} (h : o.Armed)
    (hsteady : o.client.controlSight.Steady c.controlSight) : (o.next c).Armed where
  idled := h.idled
  watch := hsteady.watch.trans h.watch
  registered := hsteady.registered.trans h.registered
  once := h.once.steady hsteady

theorem Tended.kept {o : Observed} {c : Client} (h : o.Tended)
    (hkept : o.client.controlSight.Kept c.controlSight)
    (hconnected : c.connected = o.client.connected) : (o.next c).Tended where
  connected := hconnected.trans h.connected
  sound := h.sound.kept hkept

/-! ### Keeping the invariant -/

theorem Settled.quiet {o : Observed} {c : Client} (h : o.Settled) (hquiet : Quiet o.client c) :
    (o.next c).Settled where
  packets := h.packets.kept hquiet.packets
  control := h.control.imp (fun harmed => harmed.next hquiet.control.steady)
    (fun htended => ⟨htended.1, htended.2.kept hquiet.control hquiet.connected⟩)

/-- Between a poll and the work on the control connection, both sides are in use. -/
structure Ready (o : Observed) : Prop where
  settled : o.Settled
  packetsInUse : o.client.packetSight.InUse
  controlInUse : o.idled = true → o.client.controlSight.InUse

theorem Ready.quiet {o : Observed} {c : Client} (h : o.Ready) (hquiet : Quiet o.client c) :
    (o.next c).Ready where
  settled := h.settled.quiet hquiet
  packetsInUse := hquiet.packets.inUse h.packetsInUse
  controlInUse := fun hidled => hquiet.control.inUse (h.controlInUse hidled)

/-- From the work on the control connection to that on the packet socket, the latter is
in use. -/
structure HalfReady (o : Observed) : Prop where
  settled : o.Settled
  packetsInUse : o.client.packetSight.InUse

theorem Ready.half {o : Observed} (h : o.Ready) : o.HalfReady := ⟨h.settled, h.packetsInUse⟩

theorem HalfReady.quiet {o : Observed} {c : Client} (h : o.HalfReady)
    (hquiet : Quiet o.client c) : (o.next c).HalfReady :=
  ⟨h.settled.quiet hquiet, hquiet.packets.inUse h.packetsInUse⟩

theorem Ready.ensureConnected {o : Observed} (h : o.Ready) :
    (o.through ensureConnected).state.Ready := by
  rcases h.settled.control with harmed | ⟨hidled, htended⟩
  · -- Before the first idle poll nothing is claimed of the latch, only of the registration.
    obtain ⟨hsteady, hpackets⟩ := ensureConnected_sights o.client
    refine ⟨⟨h.settled.packets.kept hpackets, .inl (harmed.next hsteady)⟩,
      hpackets.inUse h.packetsInUse, fun hidled => ?_⟩
    exact absurd (harmed.idled.symm.trans hidled) (by decide)
  · have hstage : o.through Client.ensureConnected = .going (o.next o.client) := by
      simp [through, ensureConnected_of_connected htended.connected, Stage.going]
    rw [hstage]
    exact h.quiet (.refl _)

theorem Ready.writeControl {o : Observed} (h : o.Ready) (hconnected : o.client.connected = true)
    (hlatch : o.client.controlLatch.writable = true) :
    (o.through writeControl).state.HalfReady := by
  obtain ⟨hwritten, hpackets, hstill⟩ := writeControl_written hconnected hlatch
  refine ⟨⟨h.settled.packets.kept hpackets, ?_⟩, hpackets.inUse h.packetsInUse⟩
  rcases h.settled.control with harmed | ⟨hidled, htended⟩
  · exact .inl (harmed.next hwritten.steady)
  · exact .inr ⟨hidled, hstill, htended.sound.written hwritten (h.controlInUse hidled)⟩

theorem Ready.exchangeControl {o : Observed} (h : o.Ready)
    (hconnected : o.client.connected = true) : o.exchangeControl.state.HalfReady := by
  refine Stage.andThen_of (P := fun o => o.Ready ∧ o.client.connected = true) ?_
    (fun o h => h.1.half) fun o h => ?_
  · split
    · have hquiet := quiet_readControl o.client
      exact ⟨h.quiet hquiet, hquiet.connected.trans hconnected⟩
    · exact ⟨h, hconnected⟩
  · split
    next hlatch => exact h.1.writeControl h.2 hlatch
    next => exact h.1.half

theorem Ready.serveControl {o : Observed} (h : o.Ready) : o.serveControl.state.HalfReady := by
  refine Stage.andThen_of h.ensureConnected (fun o h => h.half) ?_
  intro o h
  split
  next hconnected => exact h.exchangeControl hconnected
  next => exact h.half

theorem HalfReady.sendPacket {o : Observed} (h : o.HalfReady) :
    (o.through sendPacket).state.Settled := by
  by_cases hlatch : o.client.packetLatch.writable = true
  · obtain ⟨hcontrol, hwritten, hconnected⟩ := sendPacket_written hlatch
    refine ⟨h.settled.packets.written hwritten h.packetsInUse, ?_⟩
    exact h.settled.control.imp (fun harmed => harmed.next hcontrol.steady)
      (fun htended => ⟨htended.1, htended.2.kept hcontrol hconnected⟩)
  · have hstage : o.through Client.sendPacket = .going (o.next o.client) := by
      simp [through, Client.sendPacket, hlatch, Stage.going]
    rw [hstage]
    exact h.settled.quiet (.refl _)

theorem HalfReady.servePackets {o : Observed} (h : o.HalfReady) (now : Instant) :
    (o.servePackets now).state.Settled :=
  Stage.andThen_of (P := HalfReady) (h.quiet (quiet_receivePacket o.client now))
    (fun _ h => h.settled) fun _ h => h.sendPacket

theorem Ready.serve {o : Observed} (h : o.Ready) (lag : Duration) :
    (o.serve lag).state.Settled := by
  refine Stage.andThen_of h.serveControl (fun o h => h.settled) ?_
  intro o h
  refine Stage.andThen_induction (h.servePackets _) ?_
  intro o h
  exact h.quiet { Quiet.refl o.client with exchange := .of_calls_eq rfl }

theorem Ready.pollAndServe {o : Observed} (h : o.Ready) (turn : Turn) :
    (o.pollAndServe turn).state.Settled := by
  have hpoll := quiet_poll o.client (o.client.waitTime o.client.host.clock) turn
  unfold Observed.pollAndServe
  split
  next heq => rw [heq] at hpoll; exact h.settled.quiet hpoll
  next heq => rw [heq] at hpoll; exact h.settled.quiet hpoll
  next heq =>
    rw [heq] at hpoll
    exact (h.quiet (hpoll.trans (.foldl quiet_latch _ _))).serve turn.lag

/-- Watching the control connection: either it stays armed and has something to write,
or it is idle, or it was covered and stays so. -/
theorem Settled.watchControl {o : Observed} (h : o.Settled)
    (hgoing : (o.through watchControl).failure = none) :
    let o' := (o.through watchControl).state
    Sound tokenOfClientPackets o'.client.packetSight o'.packets ∧
      ((o'.Armed ∧ o'.client.controlHasOutput = true) ∨
        (o'.Tended ∧ o'.client.controlSight.Fitted ∧
          (o'.client.controlHasOutput = true → o'.idled = true))) := by
  obtain ⟨hrewatched, hpackets, hconnected⟩ := watchControl_going hgoing
  have hfitted := hrewatched.fitted
  have houtput : (Client.watchControl o.client).state.controlHasOutput =
      o.client.controlHasOutput :=
    hrewatched.output
  refine ⟨h.packets.kept hpackets, ?_⟩
  rcases h.control with harmed | ⟨hidled, htended⟩
  · cases hout : o.client.controlHasOutput with
    | true =>
        have hsteady : o.client.controlSight.Steady
            (Client.watchControl o.client).state.controlSight := by
          have hwatch : (Client.watchControl o.client).state.controlSight.watch =
              o.client.controlSight.watch :=
            hrewatched.watch.trans ((congrArg Interest.onDemand hout).trans harmed.watch.symm)
          exact ⟨hwatch, hrewatched.registered.trans (if_pos hwatch)⟩
        exact .inl ⟨harmed.next hsteady, houtput.trans hout⟩
    | false =>
        -- What is not connected yet always has a use for writability.
        have hstill : o.client.connected = true := by
          simp only [controlHasOutput, Bool.or_eq_false_iff, Bool.not_eq_false'] at hout
          exact hout.1.1
        have hregistered : o.client.controlSight.registered =
            some (tokenOfControl, o.client.controlSight.watch) :=
          harmed.registered.trans (by rw [← harmed.watch]; rfl)
        have hsound := Sound.of_idle hrewatched hout hregistered
          (o.through Client.watchControl).state.control
        refine .inr ⟨⟨hconnected.trans hstill, hsound⟩, hfitted, ?_⟩
        exact fun hout' => absurd (hout'.symm.trans (houtput.trans hout)) (by decide)
  · exact .inr ⟨⟨hconnected.trans htended.connected, htended.sound.rewatched hrewatched⟩, hfitted,
      fun _ => hidled⟩

theorem Settled.watch {o : Observed} {turn : Turn} (h : o.Settled)
    (hgoing : (o.watch turn).failure = none) : (o.watch turn).state.Polling := by
  obtain ⟨hcontrol, hpackets, hstate⟩ := Stage.going_of_andThen hgoing
  obtain ⟨hsound, hside⟩ := (h.quiet (quiet_prepare o.client turn)).watchControl hcontrol
  obtain ⟨hrewatched, hkept, houtput, hconnected⟩ := watchPackets_going hpackets
  unfold Observed.watch
  rw [hstate]
  refine ⟨hsound.rewatched hrewatched, hrewatched.fitted, ?_⟩
  rcases hside with ⟨harmed, hout⟩ | ⟨htended, hfitted, hidled⟩
  · exact .inl ⟨harmed.next hkept.steady, houtput.trans hout⟩
  · exact .inr ⟨htended.kept hkept hconnected, hkept.fitted houtput hfitted,
      fun hout => hidled (houtput.symm.trans hout)⟩

theorem Polling.ready {o : Observed} (h : o.Polling) : o.beforePoll.Ready := by
  rcases h.control with ⟨harmed, hout⟩ | ⟨htended, hfitted, hidled⟩
  · have hstill : o.beforePoll.idled = false := by simp [beforePoll, harmed.idled, hout]
    refine ⟨⟨h.packets, .inl ⟨hstill, harmed.watch, harmed.registered, harmed.once⟩⟩,
      h.packetsFitted.inUse, fun hidled => ?_⟩
    exact absurd (hstill.symm.trans hidled) (by decide)
  · have hnow : o.beforePoll.idled = true := by
      cases hout : o.client.controlHasOutput with
      | true => simp [beforePoll, hidled hout]
      | false => simp [beforePoll, hout]
    exact ⟨⟨h.packets, .inr ⟨hnow, htended.connected, htended.sound⟩⟩,
      h.packetsFitted.inUse, fun _ => hfitted.inUse⟩

theorem settled_first {config : PeerConfig} {near : NearEnds} {host : Host} {c : Client}
    (h : Client.start config near host = .ok c) : (first c).Settled := by
  obtain ⟨hcontrolWatch, hpacketWatch, -, -, hcalls⟩ := start_ok h
  have hcontrol : registration (.stream c.control.id) c.host.calls =
      some (tokenOfControl, .readWrite) := by
    rw [hcalls, registration_append]
    simp [Call.register?]
  have hpackets : registration .packetSocket c.host.calls = some (tokenOfClientPackets, .read) := by
    rw [hcalls, registration_append]
    rfl
  refine ⟨.first ?_, .inl ⟨rfl, hcontrolWatch, hcontrol, [], ?_⟩⟩
  · exact hpackets.trans (by rw [← hpacketWatch]; rfl)
  · simp [first, Sight.firstMarks, Sight.watched, controlSight, hcontrol, Interest.writable]

/-- The invariant holds at the head of the loop. -/
theorem Run.settled {config : PeerConfig} {o : Observed} (h : Run config o) : o.Settled := by
  induction h with
  | start h => exact settled_first h
  | @iterate o turn _ hgoing ih =>
      obtain ⟨hwatch, -, hstate⟩ := Stage.going_of_andThen hgoing
      unfold Observed.iterate
      rw [hstate]
      exact (ih.watch hwatch).ready.pollAndServe turn

/-! ### Main results -/

/-- When the client polls with something queued on a side whose latch is clear, the
poller watches that side for writing. About the packet socket it then owes a report.
About the control connection it owes one exactly when an earlier poll has found no use
for writability, or when the latch was not last cleared for another reason than a full
stream; otherwise nobody will tell the client to write what is queued. -/
theorem report_due_iff {config : PeerConfig} {o : Observed} {turn : Turn}
    (h : Run config o) (hgoing : (o.watch turn).failure = none) :
    let o' := (o.watch turn).state
    let c := o'.client
    (c.connected = true → (c.session.hasControl || c.control.hasInFlight) = true →
      c.controlLatch.writable = false →
        registration (.stream c.control.id) c.host.calls = some (tokenOfControl, .readWrite) ∧
          (Awaits o'.control ↔ o'.idled = true ∨ lastCleared o'.control ≠ some false)) ∧
    (c.packetHasOutput = true → c.packetLatch.writable = false →
      registration .packetSocket c.host.calls = some (tokenOfClientPackets, .readWrite) ∧
        Awaits o'.packets) := by
  intro o' c
  have hpolling : o'.Polling := h.settled.watch hgoing
  refine ⟨?_, ?_⟩
  · intro hconnected houtput hlatch
    have hout : c.controlHasOutput = true := by
      simp only [Bool.or_eq_true] at houtput
      simpa [controlHasOutput, hconnected] using houtput
    rcases hpolling.control with ⟨harmed, -⟩ | ⟨htended, hfitted, hidled⟩
    · -- Watched once: how the latch was cleared last decides.
      refine ⟨harmed.registered, ?_⟩
      rw [harmed.once.awaits_iff]
      simp [harmed.idled]
    · have hwatch : c.controlSight.watch = .readWrite :=
        hfitted.trans (congrArg Interest.onDemand hout)
      have hawaits : Awaits o'.control := htended.sound.awaits (by rw [hwatch]; rfl) hlatch
      refine ⟨htended.sound.registered.trans (by rw [hwatch]), ?_⟩
      simp [hawaits, hidled hout]
  · intro houtput hlatch
    have hwatch : c.packetSight.watch = .readWrite :=
      hpolling.packetsFitted.trans (congrArg Interest.onDemand houtput)
    exact ⟨hpolling.packets.registered.trans (by rw [hwatch]),
      hpolling.packets.awaits (by rw [hwatch]; rfl) hlatch⟩

/-! ### A run that hangs -/

/-- Nothing is put in store, and the poll reports some events. -/
def reporting (events : List Event) : Turn :=
  { supply := ⟨[], [], [], [], [], [], []⟩
    advance := .zero
    events := events
    pollFailure := none }

/-- The packet socket turns writable, so the first question goes out. -/
def questionTurn : Turn := reporting [⟨tokenOfClientPackets, ⟨false, true, false, false, false⟩⟩]

/-- A client of a coordinator at 192.0.2.1. -/
def hastyConfig : PeerConfig := { PeerConfig.default with server := .v4 (.ofOctets 192 0 2 1) }

/-- The near ends of the client's sockets. -/
def hastyEnds : NearEnds := ⟨some (.v4 ⟨.ofOctets 10 0 0 2, 51000⟩), .v4 ⟨.unspecified, 6000⟩⟩

/-- The frame of a response that tells the address 203.0.113.9:5000. -/
def responseFrame : Bytes :=
  [0x54, 0x45, 0x4e, 0x54, 0, 0, 0, 15, 2, 203, 0, 113, 9, 0x13, 0x88]

/-- The connect finishes, and the response has arrived. -/
def answerTurn : Turn :=
  { reporting [⟨tokenOfControl, ⟨false, true, false, false, false⟩⟩,
      ⟨tokenOfClientPackets, ⟨true, false, false, false, false⟩⟩] with
    supply := ⟨[], [], [.datagram hastyConfig.stunAddr responseFrame], [], [], [], []⟩ }

/-- The entry that the client announces after the response. -/
def hastyEntry : PeerEntry := ⟨⟨.ofOctets 203 0 113 9, 5000⟩, ⟨.ofOctets 10 0 0 2, 6000⟩⟩

/-- The response arrives in the iteration in which the connect finishes: at the next poll
the announcement is queued and the connection is not latched. Its latch was cleared
before the announcement was queued, and the source has been watched all along, so the
poller owes nothing. -/
theorem report_due_iff_hasty :
    ∃ o : Observed, Run hastyConfig o ∧ (o.watch (reporting [])).failure = none ∧
      (o.watch (reporting [])).state.client.session.controlQueue = [.connect hastyEntry] ∧
        ¬ Awaits (o.watch (reporting [])).state.control := by
  have hstart := @Run.start hastyConfig hastyEnds .idle _ rfl
  have hrun := (hstart.iterate questionTurn (by decide +kernel)).iterate answerTurn
    (by decide +kernel)
  have hiff := ((@report_due_iff hastyConfig _ (reporting []) hrun (by decide +kernel)).1
    (by decide +kernel) (by decide +kernel) (by decide +kernel)).2
  refine ⟨_, hrun, by decide +kernel, by decide +kernel, ?_⟩
  rw [hiff]
  decide +kernel

/-- So a poll can be made with the announcement queued and no report due. -/
theorem not_report_due_always :
    ¬ ∀ (config : PeerConfig) (o : Observed) (turn : Turn), Run config o →
      (o.watch turn).failure = none →
        let o' := (o.watch turn).state
        let c := o'.client
        c.connected = true → (c.session.hasControl || c.control.hasInFlight) = true →
          c.controlLatch.writable = false →
            registration (.stream c.control.id) c.host.calls = some (tokenOfControl, .readWrite) ∧
              Awaits o'.control := by
  intro h
  have hstart := @Run.start hastyConfig hastyEnds .idle _ rfl
  have hrun := (hstart.iterate questionTurn (by decide +kernel)).iterate answerTurn
    (by decide +kernel)
  have hawaits := (h _ _ (reporting []) hrun (by decide +kernel) (by decide +kernel)
    (by decide +kernel) (by decide +kernel)).2
  revert hawaits
  decide +kernel

end Observed

end Client
end Rendezvous
