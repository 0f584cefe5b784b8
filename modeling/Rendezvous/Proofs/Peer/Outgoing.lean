import Rendezvous.Proofs.Channel.Receivable
import Rendezvous.Proofs.Coordinator.Isolation
import Rendezvous.Proofs.Peer.Changes

/-!
# Rendezvous.Proofs.Peer.Outgoing

**Whatever a client has to send can be sent.** Over the control connection it sends nothing but
its announcement, and as datagrams nothing but questions and keep-alives (`Regular`). All of
these have short frames, so that no stage of the loop fails of encoding: a client that stops
with a fault of the protocol has read bytes that do not decode (`protocol_of_iterate`).
-/

namespace Rendezvous

/-! ### What a session queues -/

namespace Session

variable {s : Session} {pace : Pace}

/-- What a client's session is like: settled, at its pace, with nothing but announcements to
send over the control connection and nothing but questions and keep-alives as datagrams. -/
structure Regular (pace : Pace) (s : Session) : Prop where
  settled : s.Settled
  pace_eq : s.pace = pace
  control : ∀ msg ∈ s.controlQueue, ∃ entry, msg = .connect entry
  packets : ∀ item ∈ s.packetQueue, item.1 = .stunRequest ∨ item.1 = .keepAlive

theorem regular_start (coordinator : SocketAddr) (localAddr : SocketV4) (pace : Pace)
    (now : Instant) : Regular pace (.start coordinator localAddr pace now) where
  settled := settled_start coordinator localAddr pace now
  pace_eq := rfl
  control := nofun
  packets := nofun

theorem Regular.sendPacket {msg : Message} (h : Regular pace s)
    (hmsg : msg = .stunRequest ∨ msg = .keepAlive) (now : Instant) (timeout : Duration) :
    ∀ item ∈ (s.sendPacket msg now timeout).packetQueue,
      item.1 = .stunRequest ∨ item.1 = .keepAlive :=
  List.forall_mem_append.2 ⟨h.packets, by simpa using hmsg⟩

theorem Regular.tick (h : Regular pace s) (now : Instant) : Regular pace (s.tick now).val := by
  refine ⟨(h.settled.stepped_tick now).settled, ?_, ?_, ?_⟩
  · rw [val_tick h.settled.phase_ne]
    split
    · split <;> exact h.pace_eq
    · exact h.pace_eq
  · rw [controlQueue_tick]
    exact List.forall_mem_append.2 ⟨h.control, fun _ => mem_tickMail⟩
  · rw [val_tick h.settled.phase_ne]
    split
    · split
      · exact h.sendPacket (.inr rfl) now s.pace.refresh
      · exact h.sendPacket (.inl rfl) now s.pace.retry
    · exact h.packets

theorem Regular.packet (h : Regular pace s) (msg : Message) (sender : SocketAddr) (now : Instant) :
    Regular pace (s.onPacket msg sender now).val := by
  have hframe : (s.onPacket msg sender now).val.pace = s.pace ∧
      (s.onPacket msg sender now).val.packetQueue = s.packetQueue := by
    cases msg with
    | stunResponse observed =>
        rw [val_onPacket_stunResponse]
        split <;> exact ⟨rfl, rfl⟩
    | _ => exact ⟨rfl, rfl⟩
  refine ⟨(h.settled.stepped_packet msg sender now).settled, hframe.1.trans h.pace_eq, ?_,
    hframe.2 ▸ h.packets⟩
  rw [controlQueue_onPacket]
  exact List.forall_mem_append.2 ⟨h.control, fun _ => mem_packetMail⟩

/-- Every change keeps it. -/
theorem Regular.change (change : Change) (h : Regular pace s) : Regular pace (s.change change) := by
  cases change with
  | tick now => exact h.tick now
  | packet msg sender now => exact h.packet msg sender now
  | control msg =>
      have hframe := onControl_frame s msg
      refine ⟨(h.settled.stepped_control msg).settled, ?_, ?_, ?_⟩ <;> rw [Session.change, hframe]
      · exact h.pace_eq
      · exact h.control
      · exact h.packets
  | takeControl =>
      exact ⟨(h.settled.stepped .takeControl).settled, h.pace_eq,
        fun msg hmem => h.control msg (List.mem_of_mem_tail hmem), h.packets⟩
  | takePacket =>
      exact ⟨(h.settled.stepped .takePacket).settled, h.pace_eq, h.control,
        fun item hmem => h.packets item (List.mem_of_mem_tail hmem)⟩

/-- What is queued for the control connection has a frame. -/
theorem Regular.encode_control (h : Regular pace s) {msg : Message} (hmem : msg ∈ s.controlQueue) :
    ∃ frame, msg.encode = .ok frame := by
  obtain ⟨entry, rfl⟩ := h.control msg hmem
  have hshort : (Message.connect entry).frameLength ≤ longestDatagram := Nat.le_of_ble_eq_true rfl
  obtain ⟨frame, hframe, -⟩ := exists_encode_of_short hshort
  exact ⟨frame, hframe⟩

/-- What is queued as a datagram has a frame that fits one. -/
theorem Regular.encode_packet (h : Regular pace s) {item : Message × SocketAddr}
    (hmem : item ∈ s.packetQueue) :
    ∃ frame, item.1.encode = .ok frame ∧ frame.length ≤ longestDatagram := by
  rcases h.packets item hmem with hmsg | hmsg <;> rw [hmsg]
  · exact exists_encode_of_short (by decide)
  · exact exists_encode_of_short (by decide)

end Session

namespace Client

variable {c : Client} {pace : Pace} {turn : Turn} {e : CodecError}

theorem Changed.regular {c' : Client} (h : Changed c c') (hregular : c.session.Regular pace) :
    c'.session.Regular pace :=
  h.keeps (P := Session.Regular pace) (fun change hs => hs.change change) hregular

theorem Reachable.regular {config : PeerConfig} (h : Reachable config c) :
    c.config = config ∧ c.session.Regular config.pace :=
  h.session_keeps (fun change hs => hs.change change) fun localAddr now =>
    Session.regular_start _ localAddr _ now

/-! ### What an iteration fails of -/

/-- The client when it comes to read and write its control connection. -/
def exchanging (c : Client) (turn : Turn) : Option Client :=
  if (c.watched turn).failure.isSome then none
  else
    match (c.watched turn).state.latched turn with
    | none => none
    | some ready =>
      let checked := ready.ensureConnected
      if checked.failure.isSome || !checked.state.connected then none else some checked.state

theorem exchanging_eq {ready : Client} (hwatched : (c.watched turn).failure = none)
    (hready : (c.watched turn).state.latched turn = some ready)
    (hchecked : ready.ensureConnected.failure = none)
    (hconnected : ready.ensureConnected.state.connected = true) :
    c.exchanging turn = some ready.ensureConnected.state := by
  simp [exchanging, hwatched, hready, hchecked, hconnected]

/-- A stage that does not fail of the protocol. -/
def Intact (stage : Stage Client) : Prop :=
  ∀ e, stage.failure ≠ some (.channel (.protocol e))

theorem intact_going (c : Client) : Intact (.going c) := fun _ => nofun

/-- A sequence of stages fails with the first of them that does. -/
theorem failure_andThen {stage : Stage Client} {next : Client → Stage Client} {failure : LoopFailure}
    (h : (stage.andThen next).failure = some failure) :
    stage.failure = some failure ∨
      stage.failure = none ∧ (next stage.state).failure = some failure := by
  unfold Stage.andThen at h
  cases hstage : stage.failure with
  | none => exact .inr ⟨rfl, by simpa [hstage] using h⟩
  | some other => exact .inl (by simpa [hstage] using h)

theorem intact_watched (c : Client) (turn : Turn) : Intact (c.watched turn) := by
  intro e hfailed
  rcases failure_andThen hfailed with hcontrol | ⟨-, hpackets⟩
  · unfold watchControl at hcontrol
    simp only at hcontrol
    split at hcontrol
    · cases hcontrol
    · split at hcontrol <;> cases hcontrol
  · unfold watchPackets at hpackets
    simp only at hpackets
    split at hpackets
    · cases hpackets
    · split at hpackets <;> cases hpackets

theorem intact_ensureConnected (c : Client) : Intact c.ensureConnected := by
  intro e hfailed
  unfold ensureConnected checkConnected at hfailed
  split at hfailed
  · cases hfailed
  · split at hfailed
    · cases hfailed
    · split at hfailed <;> cases hfailed

theorem intact_settleWrite {written : FramedStream.Written}
    (h : ∀ e, written.result ≠ .error (.protocol e)) : Intact (c.settleWrite written) := by
  intro e hfailed
  unfold settleWrite at hfailed
  simp only at hfailed
  split at hfailed
  next failure heq =>
    cases hfailed
    exact h e heq
  next => cases hfailed
  next => cases hfailed

theorem intact_writeControl (h : c.session.Regular pace) : Intact c.writeControl := by
  unfold writeControl
  split
  · exact intact_settleWrite (c.control.resume_ne_protocol c.host)
  · cases hqueue : c.session.controlQueue with
    | nil =>
        rw [Session.takeControl, hqueue]
        exact intact_going _
    | cons msg rest =>
        obtain ⟨frame, hframe⟩ := h.encode_control (hqueue ▸ List.mem_cons_self)
        simp only [Session.takeControl, hqueue, List.head?_cons, List.tail_cons]
        exact intact_settleWrite (FramedStream.transmit_ne_protocol hframe c.control c.scratch _)

theorem intact_receivePacket (c : Client) (now : Instant) : Intact (c.receivePacket now) := by
  have herror := @Coordinator.recvDatagram_error c.host
  intro e hfailed
  unfold receivePacket at hfailed
  split at hfailed
  next => cases hfailed
  next =>
    split at hfailed
    next failure host heq =>
      cases hfailed
      obtain ⟨kind, hkind, -⟩ := herror (congrArg Prod.fst heq)
      cases hkind
    all_goals cases hfailed

theorem intact_sendPacket (h : c.session.Regular pace) : Intact c.sendPacket := by
  intro e hfailed
  unfold sendPacket at hfailed
  split at hfailed
  next => cases hfailed
  next =>
    split at hfailed
    next => cases hfailed
    next msg target rest hqueue =>
      -- The message has a frame that fits a datagram, and what is left can only be the system's.
      obtain ⟨frame, hframe, hlength⟩ := h.encode_packet (hqueue ▸ List.mem_cons_self)
      have herror := @Coordinator.sendDatagram_error msg frame target c.scratch c.host
      split at hfailed
      next failure scratch host heq =>
        cases hfailed
        obtain ⟨kind, hkind, -⟩ := herror hframe hlength (congrArg Prod.fst heq)
        cases hkind
      all_goals cases hfailed

theorem intact_conclude (h : c.session.Regular pace) (lag : Duration) (level : Nat) :
    Intact (conclude lag level c) := by
  intro e hfailed
  rcases failure_andThen hfailed with hpackets | ⟨-, hreleased⟩
  · rcases failure_andThen hpackets with hreceive | ⟨-, hsend⟩
    · exact intact_receivePacket c _ e hreceive
    · exact intact_sendPacket ((changed_receivePacket c _).regular h) e hsend
  · cases hreleased

/-- A read fails of the protocol only with what it gets. -/
theorem garbledBy_of_readControl (h : c.readControl.failure = some (.channel (.protocol e))) :
    c.control.GarbledBy c.host e := by
  unfold readControl at h
  simp only at h
  split at h
  next failure heq =>
    cases h
    exact FramedStream.garbledBy_of_receive heq
  next => cases h
  next => cases h

/-- So does all work on the control connection, once that is connected. -/
theorem garbledBy_of_serveControl (hregular : c.session.Regular pace)
    (h : c.serveControl.failure = some (.channel (.protocol e))) :
    c.ensureConnected.failure = none ∧ c.ensureConnected.state.connected = true ∧
      c.ensureConnected.state.control.GarbledBy c.ensureConnected.state.host e := by
  rcases failure_andThen h with hchecked | ⟨hchecked, hexchanged⟩
  · exact absurd hchecked (intact_ensureConnected c e)
  · have hsession := (changed_ensureConnected c).regular hregular
    split at hexchanged
    next hconnected =>
      refine ⟨hchecked, hconnected, ?_⟩
      rw [exchangeControl_eq] at hexchanged
      rcases failure_andThen hexchanged with hread | ⟨-, hwritten⟩
      · unfold reading at hread
        split at hread
        · exact garbledBy_of_readControl hread
        · cases hread
      · unfold writing at hwritten
        split at hwritten
        · exact absurd hwritten (intact_writeControl ((changed_reading _).regular hsession) e)
        · cases hwritten
    next => cases hexchanged

/-- An iteration fails of the protocol only with a frame that was read. -/
theorem garbledBy_of_iterate (hregular : c.session.Regular pace)
    (h : (c.iterate turn).failure = some (.channel (.protocol e))) :
    ∃ t, c.exchanging turn = some t ∧ t.control.GarbledBy t.host e := by
  rw [iterate_eq] at h
  rcases failure_andThen h with hwatched | ⟨hwatched, hserved⟩
  · exact absurd hwatched (intact_watched c turn e)
  · cases hready : (c.watched turn).state.latched turn with
    | none =>
        obtain ⟨failure, hpoll, hintact⟩ := pollAndServe_of_not_latched hready
        rw [hpoll] at hserved
        exact absurd hserved (hintact _)
    | some ready =>
        have hsession := ((changed_watched c turn).trans (changed_latched hready)).regular hregular
        rw [pollAndServe_of_latched hready, serve_eq] at hserved
        rcases failure_andThen hserved with hcontrol | ⟨-, hconcluded⟩
        · obtain ⟨hchecked, hconnected, hgarbled⟩ := garbledBy_of_serveControl hsession hcontrol
          exact ⟨_, exchanging_eq hwatched hready hchecked hconnected, hgarbled⟩
        · exact absurd hconcluded
            (intact_conclude ((changed_serveControl ready).regular hsession) _ _ e)

end Client
end Rendezvous
