import Rendezvous.Peer.Loop
import Rendezvous.Proofs.Peer.Session

/-!
# Rendezvous.Proofs.Peer.Ledger

**A client's loop with the books of its control queue.** A `Ledger` is a client
together with every message that its session has queued for the control connection, and
with what was in flight each time that a message left the queue to be written. The loop
that keeps the books runs the stages of the client's own loop and enters after each what it
did: the session queues something when its timer is looked at (`tickMail`), and when it
takes a message from the packet socket (`packetMail`).

Keeping books changes nothing: `client_iterate` takes an iteration with its books to an
iteration of the loop, and `exists_run` finds the books of every reachable state.
-/

namespace Rendezvous
namespace Client

/-- What the session queues when the packet socket is read. -/
def packetMail (c : Client) : List Message :=
  if !c.packetLatch.readable then []
  else
    match (recvDatagram c.host).1 with
    | .ok (.message msg sender) => c.session.packetMail msg sender
    | _ => []

/-- A client and the books of its control queue. -/
structure Ledger where
  client : Client
  /-- All messages that the session has queued for the control connection. -/
  enqueued : List Message
  /-- What was in flight each time that a message left the queue to be written. -/
  tails : List Bytes

namespace Ledger

/-- What is in flight, if a message is leaving the queue to be written. -/
def newTail (before after : Client) : List Bytes :=
  if after.session.controlQueue.length < before.session.controlQueue.length then
    [before.control.inFlight]
  else
    []

/-- The books of a client that has just started. -/
def first (c : Client) : Ledger := ⟨c, [], []⟩

/-- The client has got to a new state. -/
def next (l : Ledger) (c : Client) : Ledger :=
  { l with client := c, tails := l.tails ++ newTail l.client c }

/-- Messages have been queued. -/
def enter (l : Ledger) (mail : List Message) : Ledger :=
  { l with enqueued := l.enqueued ++ mail }

/-- The client goes through a stage in which nothing is queued. -/
def through (l : Ledger) (stage : Client → Stage Client) : Stage Ledger :=
  ⟨l.next (stage l.client).state, (stage l.client).failure⟩

/-! ### The loop with its books -/

/-- The part of an iteration before its poll. -/
def watch (l : Ledger) (turn : Turn) : Stage Ledger :=
  let c := { l.client with host := l.client.host.supply turn.supply }
  let ticked := (l.next (c.withSession (c.session.tick c.host.clock))).enter
    (c.session.tickMail c.host.clock)
  ticked.through watchSources

/-- Reads and writes the control connection as far as its latches allow. -/
def exchangeControl (l : Ledger) : Stage Ledger :=
  (if l.client.controlLatch.readable then l.through readControl else .going l).andThen fun l =>
    if l.client.controlLatch.writable then l.through writeControl else .going l

/-- All work of the control connection. -/
def serveControl (l : Ledger) : Stage Ledger :=
  (l.through ensureConnected).andThen fun l =>
    if l.client.connected then l.exchangeControl else .going l

/-- Receives at most one datagram. -/
def receivePacket (l : Ledger) (now : Instant) : Stage Ledger :=
  let received := l.client.receivePacket now
  ⟨(l.next received.state).enter l.client.packetMail, received.failure⟩

/-- Receives one datagram and sends one. -/
def servePackets (l : Ledger) (now : Instant) : Stage Ledger :=
  (l.receivePacket now).andThen fun l => l.through sendPacket

/-- All work of an iteration. -/
def serve (l : Ledger) (lag : Duration) : Stage Ledger :=
  let level := l.client.scratch.level
  l.serveControl.andThen fun l =>
    (l.servePackets l.client.host.clock).andThen fun l =>
      let c := l.client.elapse lag
      .going (l.next { c with scratch := c.scratch.releaseTo level })

/-- Polls, latches the events and does the work they allow. -/
def pollAndServe (l : Ledger) (turn : Turn) : Stage Ledger :=
  match l.client.host.poll (l.client.waitTime l.client.host.clock) turn with
  | (.error .interrupted, host) => .going (l.next { l.client with host := host })
  | (.error kind, host) => .stopped (l.next { l.client with host := host }) (.io kind)
  | (.ok events, host) =>
    (l.next (events.foldl latch { l.client with host := host })).serve turn.lag

/-- One iteration of the loop. -/
def iterate (l : Ledger) (turn : Turn) : Stage Ledger :=
  (l.watch turn).andThen fun l => l.pollAndServe turn

/-- The books at the loop's head, when the client is started on a given system. -/
inductive Run (config : PeerConfig) (near : NearEnds) (host : Host) : Ledger → Prop where
  | start {c : Client} (h : Client.start config near host = .ok c) :
    Run config near host (.first c)
  | iterate {l : Ledger} (turn : Turn) (before : Run config near host l)
    (h : (l.iterate turn).failure = none) : Run config near host (l.iterate turn).state

/-! ### Keeping books changes nothing -/

@[simp] theorem client_next (l : Ledger) (c : Client) : (l.next c).client = c := rfl

@[simp] theorem client_enter (l : Ledger) (mail : List Message) :
    (l.enter mail).client = l.client := rfl

theorem client_exchangeControl (l : Ledger) :
    l.exchangeControl.map client = l.client.exchangeControl := by
  refine Stage.map_andThen ?_ fun l => ?_
  · split <;> rfl
  · split <;> rfl

theorem client_serveControl (l : Ledger) :
    l.serveControl.map client = l.client.serveControl := by
  refine Stage.map_andThen rfl fun l => ?_
  split
  · exact client_exchangeControl l
  · rfl

theorem client_servePackets (l : Ledger) (now : Instant) :
    (l.servePackets now).map client = l.client.servePackets now :=
  Stage.map_andThen rfl fun _ => rfl

theorem client_serve (l : Ledger) (lag : Duration) :
    (l.serve lag).map client = l.client.serve lag := by
  unfold serve Client.serve
  refine Stage.map_andThen (client_serveControl l) fun l => ?_
  exact Stage.map_andThen (client_servePackets l _) fun _ => rfl

theorem client_pollAndServe (l : Ledger) (turn : Turn) :
    (l.pollAndServe turn).map client = l.client.pollAndServe turn := by
  unfold pollAndServe Client.pollAndServe
  rcases l.client.host.poll (l.client.waitTime l.client.host.clock) turn with ⟨kind | events, host⟩
  · cases kind <;> rfl
  · exact client_serve _ _

/-- An iteration with its books is an iteration of the loop. -/
theorem client_iterate (l : Ledger) (turn : Turn) :
    (l.iterate turn).map client = l.client.iterate turn := by
  unfold iterate Client.iterate
  exact Stage.map_andThen rfl fun l => client_pollAndServe l turn

/-- A run with its books is a run of the loop. -/
theorem Run.reachable {config : PeerConfig} {near : NearEnds} {host : Host} {l : Ledger}
    (h : Run config near host l) : Reachable config l.client := by
  induction h with
  | start h => exact .start h
  | @iterate l turn _ hgoing ih =>
      have hstep := client_iterate l turn
      have hstate : (l.iterate turn).state.client = (l.client.iterate turn).state :=
        congrArg Stage.state hstep
      rw [hstate]
      exact .iterate turn ih ((congrArg Stage.failure hstep).symm.trans hgoing)

/-- Books can be kept of every run of the loop. -/
theorem exists_run {config : PeerConfig} {c : Client} (h : Reachable config c) :
    ∃ near host l, Run config near host l ∧ l.client = c := by
  induction h with
  | @start near host _ h => exact ⟨near, host, .first _, .start h, rfl⟩
  | @iterate c turn _ hgoing ih =>
      obtain ⟨near, host, l, hrun, rfl⟩ := ih
      have hstep := client_iterate l turn
      exact ⟨near, host, _, .iterate turn hrun ((congrArg Stage.failure hstep).trans hgoing),
        congrArg Stage.state hstep⟩

end Ledger
end Client
end Rendezvous
