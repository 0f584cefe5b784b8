import Rendezvous.Peer.Polling
import Rendezvous.Peer.Service

/-!
# Rendezvous.Peer.Loop

**A client's event loop.** One iteration fires the session's timer if it is due,
watches both sources for what they need, polls, latches the events and does the
work they allow. A poll that a signal interrupts ends the iteration without work.
-/

namespace Rendezvous
namespace Client

/-- Polls, latches the events and does the work they allow. -/
def pollAndServe (c : Client) (turn : Turn) : Stage Client :=
  match c.host.poll (c.waitTime c.host.clock) turn with
  | (.error .interrupted, host) => .going { c with host := host }
  | (.error kind, host) => .stopped { c with host := host } (.io kind)
  | (.ok events, host) => (events.foldl latch { c with host := host }).serve turn.lag

/-- One iteration of the loop. -/
def iterate (c : Client) (turn : Turn) : Stage Client :=
  let c := { c with host := c.host.supply turn.supply }
  (c.withSession (c.session.tick c.host.clock)).watchSources.andThen fun c =>
    c.pollAndServe turn

/-- The public address of a session for its last log record. -/
def publicText : Option SocketV4 → String
  | some addr => s!"Some({addr})"
  | none => "None"

/-- Takes leave when the loop is told to end, noting how far the session came. -/
def leave (c : Client) : Client :=
  let s := c.session
  let known := publicText s.publicAddr
  let peers := s.directory.length
  let candidates := s.candidates.length
  c.note .info
    s!"Shutting down in state {s.phase} (public {known}, local {s.localAddr}): {peers} peers known, {candidates} connect candidates"

/-- A run of the loop that is told to end during its first poll. -/
def runOnce (c : Client) (turn : Turn) : Stage Client :=
  (c.iterate turn).andThen fun c => .going c.leave

/-- The states at the loop's head: after a start and any number of iterations that
did not fail. -/
inductive Reachable (config : PeerConfig) : Client → Prop where
  | start {near : NearEnds} {host : Host} {c : Client} (h : Client.start config near host = .ok c) :
    Reachable config c
  | iterate {c : Client} (turn : Turn) (before : Reachable config c)
    (h : (c.iterate turn).failure = none) : Reachable config (c.iterate turn).state

end Client
end Rendezvous
