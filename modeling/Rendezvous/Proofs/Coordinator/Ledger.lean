import Rendezvous.Proofs.Coordinator.Stages

/-!
# Rendezvous.Proofs.Coordinator.Ledger

**A coordinator's loop with the books of its queues.** A `Ledger` is a coordinator
together with every message that has been queued for each member since it was attached,
and with what was in flight to a member each time that a message left its queue to be
written. The loop that keeps the books runs the coordinator's own stages and enters
after each what it did; where messages are handled, it handles them one by one and enters
the `replies` that the roster posts.

Keeping books changes nothing: `coordinator_iterate` takes an iteration with its books to
an iteration of the loop, and `exists_run` finds the books of every reachable state.
-/

namespace Rendezvous
namespace Coordinator

/-! ### Reading without acting -/

/-- Reads once from a connection, and leaves the messages for later. What was decoded
before a failure is forgotten. -/
def gather (c : Coordinator) (handle : Handle) (member : Member) (now : Instant) :
    Coordinator × Option ChannelFailure :=
  match (member.stream.receive c.host).result with
  | .error e => ({ c.refilled handle member with decoded := [] }, some e)
  | .ok .dry =>
    ((c.refilled handle member).modifyMember handle fun member =>
      { member with latch := member.latch.withoutRead }, none)
  | .ok (.read count) =>
    (((c.refilled handle member).note .trace
      s!"Read {count} bytes from {member.addr}").modifyMember handle fun member =>
        { member with timer := member.timer.restart now }, none)

/-- Reading is gathering and then acting on what was gathered. -/
theorem readMember_eq_gather (c : Coordinator) (handle : Handle) (member : Member)
    (now : Instant) :
    c.readMember handle member now =
      ((c.gather handle member now).1.actOnDecoded handle, (c.gather handle member now).2) := by
  rw [readMember_eq, gather]
  rcases (member.stream.receive c.host).result with e | (count | _) <;> rfl

/-- The messages that are queued when a message is handled. -/
def replies (c : Coordinator) (handle : Handle) : Message → List (Handle × Message)
  | .connect entry => c.roster.mail handle entry
  | _ => []

/-- Those of some messages that are for one member, in order. -/
def mailFor (handle : Handle) (mail : List (Handle × Message)) : List Message :=
  (mail.filter fun item => item.1 = handle).map Prod.snd

@[simp] theorem mailFor_nil (handle : Handle) : mailFor handle [] = [] := rfl

/-! ### Books -/

/-- A coordinator and the books of its queues. -/
structure Ledger where
  coordinator : Coordinator
  /-- All messages queued for whoever is attached under a handle, since it was attached. -/
  enqueued : Handle → List Message
  /-- What was in flight to whoever was attached under a handle, each time that a message
  left its queue to be written. -/
  tails : Handle → List Bytes

namespace Ledger

/-- What is in flight to a member, if a message is leaving its queue to be written. -/
def newTail (before after : Coordinator) (handle : Handle) : List Bytes :=
  match before.roster.get? handle, after.roster.get? handle with
  | some member, some _ =>
    if (after.roster.pending handle).length < (before.roster.pending handle).length then
      [member.stream.inFlight]
    else
      []
  | _, _ => []

/-- The books of a coordinator that has just started. -/
def first (c : Coordinator) : Ledger := ⟨c, fun _ => [], fun _ => []⟩

/-- The coordinator has got to a new state. Whoever was attached on the way has a clean
page. -/
def next (l : Ledger) (c : Coordinator) : Ledger :=
  { coordinator := c
    enqueued := fun handle =>
      if (l.coordinator.roster.get? handle).isSome then l.enqueued handle else []
    tails := fun handle => l.tails handle ++ newTail l.coordinator c handle }

/-- Messages have been queued. -/
def enter (l : Ledger) (mail : List (Handle × Message)) : Ledger :=
  { l with enqueued := fun handle => l.enqueued handle ++ mailFor handle mail }

/-- The coordinator goes through a stage in which nothing is queued. -/
def through (l : Ledger) (stage : Coordinator → Stage Coordinator) : Stage Ledger :=
  ⟨l.next (stage l.coordinator).state, (stage l.coordinator).failure⟩

/-! ### The loop with its books -/

/-- Acts on a message from a control connection. -/
def act (handle : Handle) (l : Ledger) (msg : Message) : Ledger :=
  (l.next (l.coordinator.actOnControl handle msg)).enter (l.coordinator.replies handle msg)

/-- Acts on everything just read off a connection. -/
def actOnDecoded (l : Ledger) (handle : Handle) : Ledger :=
  l.coordinator.decoded.foldl (act handle) (l.next { l.coordinator with decoded := [] })

/-- Reads once from a connection and acts on the messages. -/
def readMember (l : Ledger) (handle : Handle) (member : Member) (now : Instant) :
    Ledger × Option ChannelFailure :=
  let (c, failure) := l.coordinator.gather handle member now
  ((l.next c).actOnDecoded handle, failure)

/-- Finishes the frame in flight to a member, or writes one queued message. -/
def writeMember (l : Ledger) (handle : Handle) : Ledger × Option ChannelFailure :=
  let (c, failure) := l.coordinator.writeMember handle
  (l.next c, failure)

/-- Reads and writes one member. -/
def serveMember (l : Ledger) (handle : Handle) (now : Instant) :
    Ledger × Option ChannelFailure :=
  match l.coordinator.roster.get? handle with
  | none => (l, none)
  | some member =>
    if member.latch.readable then
      match l.readMember handle member now with
      | (l, some e) => (l, some e)
      | (l, none) => l.writeMember handle
    else
      l.writeMember handle

/-- Serves one member and drops it if that fails. -/
def serveOrDismiss (now : Instant) (l : Ledger) (handle : Handle) : Ledger :=
  match l.serveMember handle now with
  | (l, none) => l
  | (l, some e) => l.next (l.coordinator.dismiss handle (.channel e))

/-- Serves every member that is attached now, oldest first. -/
def serveMembers (l : Ledger) (now : Instant) : Ledger :=
  l.coordinator.roster.order.foldl (serveOrDismiss now) l

/-- All work of an iteration. -/
def serve (l : Ledger) (lag : Duration) : Stage Ledger :=
  let level := l.coordinator.scratch.level
  let now := l.coordinator.host.clock
  (l.through fun c => c.acceptOne now).andThen fun l =>
    ((l.serveMembers now).through servePackets).andThen fun l =>
      let l := l.next (l.coordinator.elapse lag)
      let l := l.next (l.coordinator.dismissIdle l.coordinator.host.clock)
      .going (l.next { l.coordinator with scratch := l.coordinator.scratch.releaseTo level })

/-- Polls, latches the events and does the work they allow. -/
def pollAndServe (l : Ledger) (turn : Turn) : Stage Ledger :=
  match l.coordinator.host.poll (l.coordinator.waitTime l.coordinator.host.clock) turn with
  | (.error .interrupted, host) => .going (l.next { l.coordinator with host := host })
  | (.error kind, host) => .stopped (l.next { l.coordinator with host := host }) (.io kind)
  | (.ok events, host) =>
    (l.next (events.foldl latch { l.coordinator with host := host })).serve turn.lag

/-- One iteration of the loop. -/
def iterate (l : Ledger) (turn : Turn) : Stage Ledger :=
  let supplied := l.next { l.coordinator with host := l.coordinator.host.supply turn.supply }
  (supplied.through watchSources).andThen fun l => l.pollAndServe turn

/-- The books at the loop's head, when the loop is started on a given system. -/
inductive Run (config : CoordinatorConfig) (host : Host) : Ledger → Prop where
  | start {c : Coordinator} (h : Coordinator.start config host = .ok c) :
    Run config host (.first c)
  | iterate {l : Ledger} (turn : Turn) (before : Run config host l)
    (h : (l.iterate turn).failure = none) : Run config host (l.iterate turn).state

/-! ### Keeping books changes nothing -/

@[simp] theorem coordinator_next (l : Ledger) (c : Coordinator) :
    (l.next c).coordinator = c := rfl

@[simp] theorem coordinator_enter (l : Ledger) (mail : List (Handle × Message)) :
    (l.enter mail).coordinator = l.coordinator := rfl

theorem coordinator_actOnDecoded (l : Ledger) (handle : Handle) :
    (l.actOnDecoded handle).coordinator = l.coordinator.actOnDecoded handle :=
  (List.foldl_hom coordinator (fun _ _ => rfl)).symm

theorem coordinator_readMember (l : Ledger) (handle : Handle) (member : Member)
    (now : Instant) :
    Prod.map coordinator id (l.readMember handle member now) =
      l.coordinator.readMember handle member now := by
  rw [readMember_eq_gather]
  exact congrArg (·, (l.coordinator.gather handle member now).2)
    (coordinator_actOnDecoded (l.next (l.coordinator.gather handle member now).1) handle)

theorem coordinator_serveMember (l : Ledger) (handle : Handle) (now : Instant) :
    Prod.map coordinator id (l.serveMember handle now) = l.coordinator.serveMember handle now := by
  unfold serveMember Coordinator.serveMember
  cases l.coordinator.roster.get? handle with
  | none => rfl
  | some member =>
      simp only
      split
      · rw [← coordinator_readMember]
        rcases l.readMember handle member now with ⟨l', failure⟩
        cases failure <;> rfl
      · rfl

theorem coordinator_serveOrDismiss (now : Instant) (l : Ledger) (handle : Handle) :
    (serveOrDismiss now l handle).coordinator =
      Coordinator.serveOrDismiss now l.coordinator handle := by
  unfold serveOrDismiss Coordinator.serveOrDismiss
  rw [← coordinator_serveMember]
  rcases l.serveMember handle now with ⟨l', failure⟩
  cases failure <;> rfl

theorem coordinator_serveMembers (l : Ledger) (now : Instant) :
    (l.serveMembers now).coordinator = l.coordinator.serveMembers now :=
  (List.foldl_hom coordinator fun l handle => (coordinator_serveOrDismiss now l handle).symm).symm

theorem coordinator_serve (l : Ledger) (lag : Duration) :
    (l.serve lag).map coordinator = l.coordinator.serve lag := by
  unfold serve Coordinator.serve
  refine Stage.map_andThen rfl ?_
  intro l
  refine Stage.map_andThen ?_ fun _ => rfl
  rw [← coordinator_serveMembers]
  rfl

theorem coordinator_pollAndServe (l : Ledger) (turn : Turn) :
    (l.pollAndServe turn).map coordinator = l.coordinator.pollAndServe turn := by
  unfold pollAndServe Coordinator.pollAndServe
  rcases l.coordinator.host.poll (l.coordinator.waitTime l.coordinator.host.clock) turn with
    ⟨kind | events, host⟩
  · cases kind <;> rfl
  · exact coordinator_serve _ _

/-- An iteration with its books is an iteration of the loop. -/
theorem coordinator_iterate (l : Ledger) (turn : Turn) :
    (l.iterate turn).map coordinator = l.coordinator.iterate turn := by
  unfold iterate Coordinator.iterate
  exact Stage.map_andThen rfl fun l => coordinator_pollAndServe l turn

/-- A run with its books is a run of the loop. -/
theorem Run.reachable {config : CoordinatorConfig} {host : Host} {l : Ledger}
    (h : Run config host l) : Reachable config l.coordinator := by
  induction h with
  | start h => exact .start h
  | @iterate l turn _ hgoing ih =>
      have hstep := coordinator_iterate l turn
      have hstate : (l.iterate turn).state.coordinator = (l.coordinator.iterate turn).state :=
        congrArg Stage.state hstep
      rw [hstate]
      exact .iterate turn ih ((congrArg Stage.failure hstep).symm.trans hgoing)

/-- Books can be kept of every run of the loop. -/
theorem exists_run {config : CoordinatorConfig} {c : Coordinator} (h : Reachable config c) :
    ∃ host l, Run config host l ∧ l.coordinator = c := by
  induction h with
  | @start host _ h => exact ⟨host, .first _, .start h, rfl⟩
  | @iterate c turn _ hgoing ih =>
      obtain ⟨host, l, hrun, rfl⟩ := ih
      have hstep := coordinator_iterate l turn
      exact ⟨host, _, .iterate turn hrun ((congrArg Stage.failure hstep).trans hgoing),
        congrArg Stage.state hstep⟩

end Ledger
end Coordinator
end Rendezvous
