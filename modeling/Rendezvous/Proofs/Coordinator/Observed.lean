import Rendezvous.Coordinator.Loop
import Rendezvous.Proofs.Polling.WakeUp

/-!
# Rendezvous.Proofs.Coordinator.Observed

**A coordinator's loop with its history.** An `Observed` coordinator is a coordinator
together with what has happened to the latches of its sources: the write sides of
the packet socket and of each attached member, and the read sides of the listener,
the packet socket and each slot of the roster. The observed loop runs the stages of
the coordinator's own loop one by one, for each member by itself, and notes after each
what it did.

Observing changes nothing: `coordinator_iterate` takes an observed iteration to an
iteration of the loop, and `exists_run` finds the history of every reachable state.
-/

namespace Rendezvous
namespace Coordinator

/-- The write side of the packet socket. -/
def packetSight (c : Coordinator) : Sight :=
  { latched := c.packetLatch.writable
    watch := c.packetWatch
    output := !c.outbox.isEmpty
    registered := registration .packetSocket c.host.calls
    calls := c.host.calls }

/-- The write side of a member. -/
def memberSight (c : Coordinator) (member : Member) : Sight :=
  { latched := member.latch.writable
    watch := member.watch
    output := member.hasOutput
    registered := registration (.stream member.stream.id) c.host.calls
    calls := c.host.calls }

/-- A coordinator and the history of its sources. -/
structure Observed where
  coordinator : Coordinator
  /-- The write side of the packet socket. -/
  packets : List Mark
  /-- The write side of whoever is attached under a handle, since it was attached. -/
  members : Handle → List Mark
  listenerReads : List Mark
  packetReads : List Mark
  /-- The read sides of all who have been attached under a handle. -/
  memberReads : Handle → List Mark

namespace Observed

/-- The history of a member's write side. One that was not there before is seen first. -/
def memberMarks (before after : Coordinator) (handle : Handle) (past : List Mark) : List Mark :=
  match before.roster.get? handle, after.roster.get? handle with
  | some member, some member' =>
    (before.memberSight member).marks (.write member.stream.id) (after.memberSight member') past
  | none, some member' => (after.memberSight member').firstMarks
  | _, none => []

/-- The history of a member's read side. -/
def memberReadMarks (before after : Coordinator) (handle : Handle) (past : List Mark) :
    List Mark :=
  match before.roster.get? handle, after.roster.get? handle with
  | some member, some member' =>
    clearMarks (.read member.stream.id) member.latch.readable member'.latch.readable
      before.host.calls after.host.calls past
  | _, _ => past

/-- A coordinator that has just started. -/
def first (c : Coordinator) : Observed :=
  { coordinator := c, packets := c.packetSight.firstMarks, members := fun _ => []
    listenerReads := [], packetReads := [], memberReads := fun _ => [] }

/-- The coordinator has got to a new state. -/
def next (o : Observed) (c : Coordinator) : Observed :=
  { coordinator := c
    packets := o.coordinator.packetSight.marks .send c.packetSight o.packets
    members := fun handle => memberMarks o.coordinator c handle (o.members handle)
    listenerReads :=
      clearMarks .accept o.coordinator.listenerLatch c.listenerLatch o.coordinator.host.calls
        c.host.calls o.listenerReads
    packetReads :=
      clearMarks .receive o.coordinator.packetLatch.readable c.packetLatch.readable
        o.coordinator.host.calls c.host.calls o.packetReads
    memberReads := fun handle => memberReadMarks o.coordinator c handle (o.memberReads handle) }

/-- The coordinator goes through a stage. -/
def through (o : Observed) (stage : Coordinator → Stage Coordinator) : Stage Observed :=
  ⟨o.next (stage o.coordinator).state, (stage o.coordinator).failure⟩

/-- Removes a member. -/
def dismiss (o : Observed) (handle : Handle) (departure : Departure) : Observed :=
  o.next (o.coordinator.dismiss handle departure)

/-! ### The observed loop -/

/-- Watches a member for what it needs. -/
def watchMember (state : Observed × List (Handle × IoKind)) (handle : Handle) :
    Observed × List (Handle × IoKind) :=
  let (o, failed) := state
  let (c, failed) := Coordinator.watchMember (o.coordinator, failed) handle
  (o.next c, failed)

/-- Watches every member for what it needs and drops those for which that fails. -/
def watchMembers (o : Observed) : Observed :=
  let (o, failed) := o.coordinator.roster.order.foldl watchMember (o, [])
  failed.foldl (fun o entry => o.dismiss entry.1 (.channel (.io entry.2))) o

/-- The part of an iteration before its poll. -/
def watch (o : Observed) (turn : Turn) : Stage Observed :=
  let c := { o.coordinator with host := o.coordinator.host.supply turn.supply }
  ((o.next c).through watchPackets).andThen fun o => .going o.watchMembers

/-- Reads and writes one member. -/
def serveMember (o : Observed) (handle : Handle) (now : Instant) :
    Observed × Option ChannelFailure :=
  match o.coordinator.roster.get? handle with
  | none => (o, none)
  | some member =>
    if member.latch.readable then
      match o.coordinator.readMember handle member now with
      | (c, some e) => (o.next c, some e)
      | (c, none) =>
        let (c', failure) := c.writeMember handle
        ((o.next c).next c', failure)
    else
      let (c, failure) := o.coordinator.writeMember handle
      (o.next c, failure)

/-- Serves one member and drops it if that fails. -/
def serveOrDismiss (now : Instant) (o : Observed) (handle : Handle) : Observed :=
  match o.serveMember handle now with
  | (o, none) => o
  | (o, some e) => o.dismiss handle (.channel e)

/-- Serves every member that is attached now, oldest first. -/
def serveMembers (o : Observed) (now : Instant) : Observed :=
  o.coordinator.roster.order.foldl (serveOrDismiss now) o

/-- Receives one datagram and sends one. -/
def servePackets (o : Observed) : Stage Observed :=
  (o.through receivePacket).andThen fun o => o.through sendPacket

/-- Drops every member that has been silent for too long. -/
def dismissIdle (o : Observed) (now : Instant) : Observed :=
  (o.coordinator.roster.overdue now).foldl (fun o handle => o.dismiss handle .idle) o

/-- All work of an iteration. -/
def serve (o : Observed) (lag : Duration) : Stage Observed :=
  let level := o.coordinator.scratch.level
  let now := o.coordinator.host.clock
  (o.through fun c => c.acceptOne now).andThen fun o =>
    (o.serveMembers now).servePackets.andThen fun o =>
      let o := o.next (o.coordinator.elapse lag)
      let o := o.dismissIdle o.coordinator.host.clock
      .going (o.next { o.coordinator with scratch := o.coordinator.scratch.releaseTo level })

/-- Polls, latches the events and does the work they allow. -/
def pollAndServe (o : Observed) (turn : Turn) : Stage Observed :=
  match o.coordinator.host.poll (o.coordinator.waitTime o.coordinator.host.clock) turn with
  | (.error .interrupted, host) => .going (o.next { o.coordinator with host := host })
  | (.error kind, host) => .stopped (o.next { o.coordinator with host := host }) (.io kind)
  | (.ok events, host) =>
    (o.next (events.foldl latch { o.coordinator with host := host })).serve turn.lag

/-- One iteration of the loop. -/
def iterate (o : Observed) (turn : Turn) : Stage Observed :=
  (o.watch turn).andThen fun o => o.pollAndServe turn

/-- The observed states at the loop's head, when the loop is started on a given system. -/
inductive Run (config : CoordinatorConfig) (host : Host) : Observed → Prop where
  | start {c : Coordinator} (h : Coordinator.start config host = .ok c) :
    Run config host (.first c)
  | iterate {o : Observed} (turn : Turn) (before : Run config host o)
    (h : (o.iterate turn).failure = none) : Run config host (o.iterate turn).state

/-! ### Observing changes nothing -/

@[simp] theorem coordinator_next (o : Observed) (c : Coordinator) :
    (o.next c).coordinator = c := rfl

theorem coordinator_foldl {α : Type} {step : Observed → α → Observed}
    {seen : Coordinator → α → Coordinator}
    (h : ∀ o x, (step o x).coordinator = seen o.coordinator x) (o : Observed) (xs : List α) :
    (xs.foldl step o).coordinator = xs.foldl seen o.coordinator :=
  (List.foldl_hom coordinator (fun o x => (h o x).symm)).symm

theorem coordinator_watchMembers (o : Observed) :
    o.watchMembers.coordinator = o.coordinator.watchMembers := by
  have hwatch : (fun state : Observed × List (Handle × IoKind) => (state.1.coordinator, state.2))
      (o.coordinator.roster.order.foldl watchMember (o, [])) =
        o.coordinator.roster.order.foldl Coordinator.watchMember (o.coordinator, []) :=
    (List.foldl_hom
      (fun state : Observed × List (Handle × IoKind) => (state.1.coordinator, state.2))
      (fun _ _ => rfl)).symm
  unfold watchMembers Coordinator.watchMembers
  rw [← hwatch]
  exact coordinator_foldl (fun _ _ => rfl) _ _

theorem coordinator_watch (o : Observed) (turn : Turn) :
    (o.watch turn).map coordinator =
      ({ o.coordinator with host := o.coordinator.host.supply turn.supply } :
        Coordinator).watchSources :=
  Stage.map_andThen rfl fun o => congrArg Stage.going (coordinator_watchMembers o)

theorem coordinator_serveOrDismiss (now : Instant) (o : Observed) (handle : Handle) :
    (serveOrDismiss now o handle).coordinator =
      Coordinator.serveOrDismiss now o.coordinator handle := by
  have hserve : (fun state : Observed × Option ChannelFailure => (state.1.coordinator, state.2))
      (o.serveMember handle now) = o.coordinator.serveMember handle now := by
    unfold serveMember Coordinator.serveMember
    cases o.coordinator.roster.get? handle with
    | none => rfl
    | some member =>
        simp only
        split
        · rcases o.coordinator.readMember handle member now with ⟨c, failure⟩
          cases failure <;> rfl
        · rfl
  unfold serveOrDismiss Coordinator.serveOrDismiss
  rw [← hserve]
  rcases o.serveMember handle now with ⟨o', failure⟩
  cases failure <;> rfl

theorem coordinator_servePackets (o : Observed) :
    o.servePackets.map coordinator = o.coordinator.servePackets :=
  Stage.map_andThen rfl fun _ => rfl

theorem coordinator_serve (o : Observed) (lag : Duration) :
    (o.serve lag).map coordinator = o.coordinator.serve lag := by
  unfold serve Coordinator.serve
  refine Stage.map_andThen rfl ?_
  intro o
  refine Stage.map_andThen ?_ fun o => ?_
  · rw [coordinator_servePackets, serveMembers,
      coordinator_foldl (coordinator_serveOrDismiss _)]
    rfl
  · have hidle : ((o.next (o.coordinator.elapse lag)).dismissIdle
        (o.coordinator.elapse lag).host.clock).coordinator =
          (o.coordinator.elapse lag).dismissIdle (o.coordinator.elapse lag).host.clock :=
      coordinator_foldl (fun _ _ => rfl) _ _
    simp [hidle]

theorem coordinator_pollAndServe (o : Observed) (turn : Turn) :
    (o.pollAndServe turn).map coordinator = o.coordinator.pollAndServe turn := by
  unfold pollAndServe Coordinator.pollAndServe
  rcases o.coordinator.host.poll (o.coordinator.waitTime o.coordinator.host.clock) turn with
    ⟨kind | events, host⟩
  · cases kind <;> rfl
  · exact coordinator_serve _ _

/-- An observed iteration is an iteration of the loop. -/
theorem coordinator_iterate (o : Observed) (turn : Turn) :
    (o.iterate turn).map coordinator = o.coordinator.iterate turn := by
  unfold iterate Coordinator.iterate
  exact Stage.map_andThen (coordinator_watch o turn) fun o => coordinator_pollAndServe o turn

/-- An observed run is a run of the loop. -/
theorem Run.reachable {config : CoordinatorConfig} {host : Host} {o : Observed}
    (h : Run config host o) : Reachable config o.coordinator := by
  induction h with
  | start h => exact .start h
  | @iterate o turn _ hgoing ih =>
      have hstep := coordinator_iterate o turn
      have hstate : (o.iterate turn).state.coordinator = (o.coordinator.iterate turn).state :=
        congrArg Stage.state hstep
      rw [hstate]
      exact .iterate turn ih ((congrArg Stage.failure hstep).symm.trans hgoing)

/-- Every run of the loop can be observed. -/
theorem exists_run {config : CoordinatorConfig} {c : Coordinator} (h : Reachable config c) :
    ∃ host o, Run config host o ∧ o.coordinator = c := by
  induction h with
  | @start host _ h => exact ⟨host, .first _, .start h, rfl⟩
  | @iterate c turn _ hgoing ih =>
      obtain ⟨host, o, hrun, rfl⟩ := ih
      have hstep := coordinator_iterate o turn
      exact ⟨host, _, .iterate turn hrun ((congrArg Stage.failure hstep).trans hgoing),
        congrArg Stage.state hstep⟩

end Observed
end Coordinator
end Rendezvous
