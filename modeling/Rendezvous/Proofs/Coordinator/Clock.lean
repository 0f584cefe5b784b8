import Rendezvous.Proofs.Coordinator.AtRest

/-!
# Rendezvous.Proofs.Coordinator.Clock

**Time passes in the poll, and in the work after it.** An iteration reads the clock when its poll
is over, for what it accepts and reads, and again before it dismisses whoever is overdue; the lag
of its turn lies between the two readings. A `Timed` run has the time of the iteration put down
for every call that it has made.

Nothing else moves the clock: `clock_expiring` is the time at which overdue members are dismissed.
-/

namespace Rendezvous

/-! ### The system's clock -/

theorem clock_receive (stream : FramedStream) (host : Host) :
    (stream.receive host).host.clock = host.clock := by
  rw [FramedStream.host_receive]
  exact retry_induction (motive := fun a b : Host => b.clock = a.clock) (fun _ => rfl)
    (fun _ _ _ hab hbc => hbc.trans hab) _ host

theorem clock_sendBytes (id : StreamId) (bytes : Bytes) (host : Host) :
    (sendBytes id bytes host).2.clock = host.clock :=
  sendWithin_induction (motive := fun a b : Host => b.clock = a.clock) (fun _ => rfl)
    (fun _ _ _ hab hbc => hbc.trans hab) (fun _ _ => rfl) _ bytes host

theorem clock_resume (stream : FramedStream) (host : Host) :
    (stream.resume host).host.clock = host.clock := by
  have hsend := clock_sendBytes stream.id stream.inFlight host
  unfold FramedStream.resume
  split
  next => rfl
  next => split <;> (next heq => rwa [heq] at hsend)

theorem clock_transmit (stream : FramedStream) (msg : Message) (scratch : Scratch) (host : Host) :
    (stream.transmit msg scratch host).1.host.clock = host.clock := by
  unfold FramedStream.transmit
  split
  next => rfl
  next bytes _ _ =>
    have hsend := clock_sendBytes stream.id bytes host
    split
    next heq => rwa [heq] at hsend
    next heq =>
      rw [heq] at hsend
      simp only
      split <;> exact hsend

theorem clock_recvDatagram (host : Host) : (recvDatagram host).2.clock = host.clock := by
  have hrecv : (host.recvUninterrupted datagramRoom).2.clock = host.clock :=
    retry_induction (motive := fun a b : Host => b.clock = a.clock) (fun _ => rfl)
      (fun _ _ _ hab hbc => hbc.trans hab) _ host
  unfold recvDatagram
  split <;> (next heq => rwa [heq] at hrecv)

theorem clock_sendDatagram (msg : Message) (target : SocketAddr) (scratch : Scratch)
    (host : Host) : (sendDatagram msg target scratch host).2.2.clock = host.clock := by
  unfold sendDatagram
  split
  next => rfl
  next bytes _ _ =>
    have hsend : (host.sendUninterrupted target bytes).2.clock = host.clock :=
      retry_induction (motive := fun a b : Host => b.clock = a.clock) (fun _ => rfl)
        (fun _ _ _ hab hbc => hbc.trans hab) _ host
    split
    next => rfl
    next =>
      split
      next heq =>
        rw [heq] at hsend
        simp only
        split <;> exact hsend
      next heq => rwa [heq] at hsend
      next heq => rwa [heq] at hsend

theorem clock_poll (host : Host) (timeout : Duration) (turn : Turn) :
    (host.poll timeout turn).2.clock = host.clock.after turn.advance := by
  unfold Host.poll
  simp only
  split <;> rfl

namespace Coordinator

variable {a b c c' : Coordinator} {done : List Dispatch} {handle : Handle} {member : Member}
  {turn : Turn}

/-! ### Pieces of work -/

theorem clock_latch (c : Coordinator) (event : Event) :
    (c.latch event).host.clock = c.host.clock := by
  unfold latch
  repeat' split
  all_goals rfl

theorem clock_latched (h : c.latched turn = some c') :
    c'.host.clock = c.host.clock.after turn.advance := by
  have hpoll := clock_poll c.host (c.waitTime c.host.clock) turn
  unfold latched at h
  split at h
  next => cases h
  next events host heq =>
    cases h
    rw [heq] at hpoll
    exact List.foldlRecOn
      (motive := fun b : Coordinator => b.host.clock = c.host.clock.after turn.advance) _ _ hpoll
      fun b hbefore event _ => (clock_latch b event).trans hbefore

theorem clock_acceptOne (c : Coordinator) (now : Instant) :
    (c.acceptOne now).state.host.clock = c.host.clock := by
  have haccept : c.host.accept.2.clock = c.host.clock := rfl
  unfold acceptOne
  split
  next => rfl
  next =>
    split
    next heq =>
      rw [heq] at haccept
      unfold welcome
      simp only [Stage.state_going]
      split
      next heq => exact (congrArg (fun answer => answer.2.clock) heq).symm.trans haccept
      next heq => exact (congrArg (fun answer => answer.2.clock) heq).symm.trans haccept
    next heq => rwa [heq] at haccept
    next heq =>
      rw [heq] at haccept
      simp only
      split <;> exact haccept

theorem clock_refilled (c : Coordinator) (handle : Handle) (member : Member) :
    (c.refilled handle member).host.clock = c.host.clock := by
  have hreceive := clock_receive member.stream c.host
  unfold refilled countSkipped
  simp only
  split <;> exact hreceive

theorem clock_gather (c : Coordinator) (handle : Handle) (member : Member) (now : Instant) :
    (c.gather handle member now).1.host.clock = c.host.clock := by
  have hrefilled := clock_refilled c handle member
  unfold gather
  split <;> exact hrefilled

theorem clock_actOnControl (c : Coordinator) (handle : Handle) (msg : Message) :
    (c.actOnControl handle msg).host.clock = c.host.clock := by
  unfold actOnControl
  split
  · rfl
  · cases msg with
    | connect entry => simp only; split <;> rfl
    | _ => rfl

theorem clock_writeMember (c : Coordinator) (handle : Handle) :
    (c.writeMember handle).1.host.clock = c.host.clock := by
  unfold writeMember
  split
  next => rfl
  next member _ =>
    split
    next => rfl
    next =>
      split
      next =>
        unfold continueWrite
        simp only
        split <;> rw [host_settleWrite, clock_resume]
      next =>
        unfold writeNext
        rcases c.roster.takeNext handle with ⟨_ | msg, roster⟩
        · rfl
        · have hcounted (c : Coordinator) :
              (c.countSent msg member.addr).host.clock = c.host.clock := by
            unfold countSent
            simp only
            split <;> rfl
          simp only
          split
          · rw [host_settleWrite, clock_transmit]
          · rw [hcounted, host_settleWrite, clock_transmit]

theorem clock_receivePacket (c : Coordinator) :
    c.receivePacket.state.host.clock = c.host.clock := by
  have hrecv := clock_recvDatagram c.host
  unfold receivePacket
  split
  next => rfl
  next =>
    split
    next heq => rwa [heq] at hrecv
    next heq => rwa [heq] at hrecv
    next heq => rwa [heq] at hrecv
    next heq =>
      rw [heq] at hrecv
      unfold actOnPacket
      simp only
      split <;> exact hrecv

theorem clock_sendPacket (c : Coordinator) : c.sendPacket.state.host.clock = c.host.clock := by
  unfold sendPacket
  split
  next => rfl
  next =>
    split
    next => rfl
    next msg target rest _ =>
      have hsend := clock_sendDatagram msg target c.scratch c.host
      split
      next heq => rwa [heq] at hsend
      next heq =>
        rw [heq] at hsend
        unfold countPacket
        simp only
        split <;> exact hsend
      next heq => rwa [heq] at hsend

theorem clock_actOnDecoded (c : Coordinator) (handle : Handle) :
    (c.actOnDecoded handle).host.clock = c.host.clock :=
  List.foldlRecOn (motive := fun b : Coordinator => b.host.clock = c.host.clock) _ _ rfl
    fun b hbefore msg _ => (clock_actOnControl b handle msg).trans hbefore

theorem clock_readMember (c : Coordinator) (handle : Handle) (member : Member) (now : Instant) :
    (c.readMember handle member now).1.host.clock = c.host.clock := by
  rw [readMember_eq_gather]
  exact (clock_actOnDecoded _ handle).trans (clock_gather c handle member now)

theorem clock_dismiss (c : Coordinator) (handle : Handle) (departure : Departure) :
    (c.dismiss handle departure).host.clock = c.host.clock := by
  unfold dismiss
  split
  next => rfl
  next =>
    simp only
    split <;> rfl

theorem clock_serveMember (c : Coordinator) (handle : Handle) (now : Instant) :
    (c.serveMember handle now).1.host.clock = c.host.clock := by
  unfold serveMember
  split
  next => rfl
  next member _ =>
    split
    next =>
      have hread := clock_readMember c handle member now
      split
      next heq => rwa [heq] at hread
      next heq =>
        rw [heq] at hread
        exact (clock_writeMember _ handle).trans hread
    next => exact clock_writeMember c handle

theorem clock_serveOrDismiss (now : Instant) (c : Coordinator) (handle : Handle) :
    (serveOrDismiss now c handle).host.clock = c.host.clock := by
  have hserved := clock_serveMember c handle now
  unfold serveOrDismiss
  split
  next heq => rwa [heq] at hserved
  next heq =>
    rw [heq] at hserved
    exact (clock_dismiss ..).trans hserved

theorem clock_serveMembers (c : Coordinator) (now : Instant) :
    (c.serveMembers now).host.clock = c.host.clock :=
  List.foldlRecOn (motive := fun b : Coordinator => b.host.clock = c.host.clock) _ _ rfl
    fun b hbefore handle _ => (clock_serveOrDismiss now b handle).trans hbefore

theorem clock_servePackets (c : Coordinator) :
    c.servePackets.state.host.clock = c.host.clock :=
  Stage.andThen_induction (motive := fun b : Coordinator => b.host.clock = c.host.clock)
    (clock_receivePacket c) fun b hbefore => (clock_sendPacket b).trans hbefore

theorem clock_dismissIdle (c : Coordinator) (now : Instant) :
    (c.dismissIdle now).host.clock = c.host.clock :=
  List.foldlRecOn (motive := fun b : Coordinator => b.host.clock = c.host.clock) _ _ rfl
    fun b hbefore handle _ => (clock_dismiss b handle .idle).trans hbefore

/-! ### The two readings -/

/-- What comes before overdue members are dismissed, if it comes to that. -/
theorem expiring_cases {x : Coordinator} (h : c.expiring turn = some x) :
    ∃ w ready s, c.watched turn = .going w ∧ w.latched turn = some ready ∧
      ready.acceptOne ready.host.clock = .going s ∧ ∃ served,
        (s.serveMembers ready.host.clock).servePackets = .going served ∧
          x = served.elapse turn.lag := by
  rcases c.serving_cases turn with ⟨hnone, -⟩ | ⟨w, ready, s, hw, hready, hs, hserving, -⟩
  · simp [expiring, hnone] at h
  · refine ⟨w, ready, s, hw, hready, hs, ?_⟩
    unfold expiring at h
    rw [hserving] at h
    simp only at h
    split at h
    next => cases h
    next hgoing =>
      cases h
      exact ⟨_, congrArg (Stage.mk _) (Option.not_isSome_iff_eq_none.1 hgoing), rfl⟩

section

variable {w ready : Coordinator}

theorem work_ready (hw : c.watched turn = .going w) (hready : w.latched turn = some ready) :
    Work c [] ready := by
  have hwatched := work_watched c turn
  rw [hw] at hwatched
  exact hwatched.thenQuiet (work_latched hready)

/-- The time of an iteration is that at which its poll is over. -/
theorem clock_ready (h : Consistent c) (hw : c.watched turn = .going w)
    (hready : w.latched turn = some ready) :
    ready.host.clock = c.host.clock.after turn.advance := by
  have hwatched := (Unstirred.watched h turn).clock
  rw [hw, Stage.state_going] at hwatched
  rw [clock_latched hready, hwatched]

end

theorem work_expiring {x : Coordinator} (hx : c.expiring turn = some x) :
    ∃ done, Work c done x := by
  obtain ⟨w, ready, s, hw, hready, hs, served, hserved, rfl⟩ := expiring_cases hx
  have haccepted := (work_ready hw hready).piece (.accept ready ready.host.clock)
  have hpackets : Work (s.serveMembers ready.host.clock) []
      (s.serveMembers ready.host.clock).servePackets.state :=
    .andThen (.single (.receive _)) fun b => .single (.send b)
  rw [hs] at haccepted
  rw [hserved] at hpackets
  have hmembers := haccepted.trans (work_serveEach ready.host.clock s s.roster.order)
  exact ⟨_, (hmembers.thenQuiet hpackets).piece (.elapse served turn.lag)⟩

/-- **The second reading** is later than the first one by the lag. -/
theorem clock_expiring {x : Coordinator} (h : Consistent c) (hx : c.expiring turn = some x) :
    x.host.clock = (c.host.clock.after turn.advance).after turn.lag := by
  obtain ⟨w, ready, s, hw, hready, hs, served, hserved, rfl⟩ := expiring_cases hx
  have haccepted := clock_acceptOne ready ready.host.clock
  have hmembers := clock_serveMembers s ready.host.clock
  have hpackets := clock_servePackets (s.serveMembers ready.host.clock)
  rw [hs, Stage.state_going] at haccepted
  rw [hserved, Stage.state_going, hmembers, haccepted, clock_ready h hw hready] at hpackets
  exact congrArg (Instant.after · turn.lag) hpackets

/-- An iteration that comes to dismiss overdue members ends with that. -/
theorem iterate_of_expiring {x : Coordinator} (hx : c.expiring turn = some x) :
    ∃ level, c.iterate turn = .going
      { x.dismissIdle x.host.clock with
        scratch := (x.dismissIdle x.host.clock).scratch.releaseTo level } := by
  obtain ⟨w, ready, s, hw, hready, hs, served, hserved, rfl⟩ := expiring_cases hx
  have hiterate : c.iterate turn = (c.watched turn).andThen fun w => w.pollAndServe turn := rfl
  refine ⟨ready.scratch.level, ?_⟩
  rw [hiterate, hw, Stage.going_andThen, pollAndServe_of_latched hready]
  simp only [serve, hs, Stage.going_andThen, hserved]

/-! ### Runs -/

/-- Calls, with the time that is put down for them. -/
def stamped (time : Instant) (calls : List Call) : List (Instant × Call) :=
  calls.map fun call => (time, call)

/-- The states at the loop's head when the loop is started on a given system, each with the calls
since the start. The time of a call is that at which the poll of its iteration was over. -/
inductive Timed (config : CoordinatorConfig) (host : Host) :
    Coordinator → List (Instant × Call) → Prop where
  | start {c : Coordinator} (h : Coordinator.start config host = .ok c) : Timed config host c []
  | iterate {c : Coordinator} {timeline : List (Instant × Call)} (turn : Turn)
    (before : Timed config host c timeline) (h : (c.iterate turn).failure = none) :
    Timed config host (c.iterate turn).state
      (timeline ++ stamped (c.host.clock.after turn.advance)
        (c.host.callsSince (c.iterate turn).state.host))

end Coordinator
end Rendezvous
