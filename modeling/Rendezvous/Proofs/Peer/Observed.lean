import Rendezvous.Peer.Loop
import Rendezvous.Proofs.Polling.WakeUp

/-!
# Rendezvous.Proofs.Peer.Observed

**A client's loop with its history.** An `Observed` client is a client together with
what has happened to the write sides of its two sources. The observed loop runs
the stages of the client's own loop one by one and notes after each what it did.

Observing changes nothing: `client_iterate` takes an observed iteration to an
iteration of the loop, and `exists_run` finds the history of every reachable state.
-/

namespace Rendezvous
namespace Client

/-- The write side of the control connection. -/
def controlSight (c : Client) : Sight :=
  { latched := c.controlLatch.writable
    watch := c.controlWatch
    output := c.controlHasOutput
    registered := registration (.stream c.control.id) c.host.calls
    calls := c.host.calls }

/-- The write side of the packet socket. -/
def packetSight (c : Client) : Sight :=
  { latched := c.packetLatch.writable
    watch := c.packetWatch
    output := c.packetHasOutput
    registered := registration .packetSocket c.host.calls
    calls := c.host.calls }

/-- A client and the history of its write sides. -/
structure Observed where
  client : Client
  control : List Mark
  packets : List Mark
  /-- Has there been a poll while writability of the control connection was of no
  use? -/
  idled : Bool

namespace Observed

/-- A client that has just started. -/
def first (c : Client) : Observed :=
  ⟨c, c.controlSight.firstMarks, c.packetSight.firstMarks, false⟩

/-- The client has got to a new state. -/
def next (o : Observed) (c : Client) : Observed :=
  { o with
    client := c
    control := o.client.controlSight.marks (.write c.control.id) c.controlSight o.control
    packets := o.client.packetSight.marks .send c.packetSight o.packets }

/-- The client goes through a stage. -/
def through (o : Observed) (stage : Client → Stage Client) : Stage Observed :=
  ⟨o.next (stage o.client).state, (stage o.client).failure⟩

/-- Notes that the client is about to poll. -/
def beforePoll (o : Observed) : Observed :=
  { o with idled := o.idled || !o.client.controlHasOutput }

/-! ### The observed loop -/

/-- The part of an iteration before its poll. -/
def watch (o : Observed) (turn : Turn) : Stage Observed :=
  let c := { o.client with host := o.client.host.supply turn.supply }
  ((o.next (c.withSession (c.session.tick c.host.clock))).through watchControl).andThen fun o =>
    o.through watchPackets

/-- Reads and writes the control connection as far as its latches allow. -/
def exchangeControl (o : Observed) : Stage Observed :=
  (if o.client.controlLatch.readable then o.through readControl else .going o).andThen fun o =>
    if o.client.controlLatch.writable then o.through writeControl else .going o

/-- All work of the control connection. -/
def serveControl (o : Observed) : Stage Observed :=
  (o.through ensureConnected).andThen fun o =>
    if o.client.connected then o.exchangeControl else .going o

/-- Receives one datagram and sends one. -/
def servePackets (o : Observed) (now : Instant) : Stage Observed :=
  (o.through fun c => c.receivePacket now).andThen fun o => o.through sendPacket

/-- All work of an iteration. -/
def serve (o : Observed) (lag : Duration) : Stage Observed :=
  let level := o.client.scratch.level
  o.serveControl.andThen fun o =>
    (o.servePackets o.client.host.clock).andThen fun o =>
      let c := o.client.elapse lag
      .going (o.next { c with scratch := c.scratch.releaseTo level })

/-- Polls, latches the events and does the work they allow. -/
def pollAndServe (o : Observed) (turn : Turn) : Stage Observed :=
  match o.client.host.poll (o.client.waitTime o.client.host.clock) turn with
  | (.error .interrupted, host) => .going (o.next { o.client with host := host })
  | (.error kind, host) => .stopped (o.next { o.client with host := host }) (.io kind)
  | (.ok events, host) =>
    (o.next (events.foldl latch { o.client with host := host })).serve turn.lag

/-- One iteration of the loop. -/
def iterate (o : Observed) (turn : Turn) : Stage Observed :=
  (o.watch turn).andThen fun o => o.beforePoll.pollAndServe turn

/-- The observed states at the loop's head. -/
inductive Run (config : PeerConfig) : Observed → Prop where
  | start {near : NearEnds} {host : Host} {c : Client} (h : Client.start config near host = .ok c) :
    Run config (.first c)
  | iterate {o : Observed} (turn : Turn) (before : Run config o)
    (h : (o.iterate turn).failure = none) : Run config (o.iterate turn).state

end Observed

/-! ### Observing changes nothing -/

namespace Observed

@[simp] theorem client_next (o : Observed) (c : Client) : (o.next c).client = c := rfl

@[simp] theorem client_beforePoll (o : Observed) : o.beforePoll.client = o.client := rfl

@[simp] theorem client_through (o : Observed) (stage : Client → Stage Client) :
    (o.through stage).map client = stage o.client := rfl

theorem client_exchangeControl (o : Observed) :
    o.exchangeControl.map client = o.client.exchangeControl := by
  refine Stage.map_andThen ?_ fun o => ?_
  · split <;> rfl
  · split <;> rfl

theorem client_serveControl (o : Observed) :
    o.serveControl.map client = o.client.serveControl := by
  refine Stage.map_andThen rfl ?_
  intro o
  split
  · exact client_exchangeControl o
  · rfl

theorem client_servePackets (o : Observed) (now : Instant) :
    (o.servePackets now).map client = o.client.servePackets now :=
  Stage.map_andThen rfl fun _ => rfl

theorem client_serve (o : Observed) (lag : Duration) :
    (o.serve lag).map client = o.client.serve lag := by
  unfold serve Client.serve
  refine Stage.map_andThen (client_serveControl o) ?_
  intro o
  exact Stage.map_andThen (client_servePackets o _) fun _ => rfl

theorem client_pollAndServe (o : Observed) (turn : Turn) :
    (o.pollAndServe turn).map client = o.client.pollAndServe turn := by
  unfold pollAndServe Client.pollAndServe
  rcases o.client.host.poll (o.client.waitTime o.client.host.clock) turn with ⟨kind | events, host⟩
  · cases kind <;> rfl
  · exact client_serve _ _

theorem client_watch (o : Observed) (turn : Turn) :
    (o.watch turn).map client =
      (({ o.client with host := o.client.host.supply turn.supply } : Client).withSession
        (o.client.session.tick (o.client.host.supply turn.supply).clock)).watchSources :=
  Stage.map_andThen rfl fun _ => rfl

/-- An observed iteration is an iteration of the loop. -/
theorem client_iterate (o : Observed) (turn : Turn) :
    (o.iterate turn).map client = o.client.iterate turn := by
  unfold iterate Client.iterate
  refine Stage.map_andThen (client_watch o turn) ?_
  intro o
  exact client_pollAndServe o.beforePoll turn

/-- An observed run is a run of the loop. -/
theorem Run.reachable {config : PeerConfig} {o : Observed} (h : Run config o) :
    Reachable config o.client := by
  induction h with
  | start h => exact .start h
  | @iterate o turn _ hgoing ih =>
      have hstep := client_iterate o turn
      have hstate : (o.iterate turn).state.client = (o.client.iterate turn).state :=
        congrArg Stage.state hstep
      rw [hstate]
      exact .iterate turn ih ((congrArg Stage.failure hstep).symm.trans hgoing)

/-- Every run of the loop can be observed. -/
theorem exists_run {config : PeerConfig} {c : Client} (h : Reachable config c) :
    ∃ o, Run config o ∧ o.client = c := by
  induction h with
  | start h => exact ⟨.first _, .start h, rfl⟩
  | @iterate c turn _ hgoing ih =>
      obtain ⟨o, hrun, rfl⟩ := ih
      have hstep := client_iterate o turn
      exact ⟨_, .iterate turn hrun ((congrArg Stage.failure hstep).trans hgoing),
        congrArg Stage.state hstep⟩

end Observed
end Client
end Rendezvous
