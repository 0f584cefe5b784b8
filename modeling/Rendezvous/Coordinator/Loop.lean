import Rendezvous.Coordinator.Polling
import Rendezvous.Coordinator.Service

/-!
# Rendezvous.Coordinator.Loop

**The coordinator's event loop.** One iteration watches every source for what it
needs, polls, latches the events and does the work they allow. A poll that a
signal interrupts ends the iteration without work.
-/

namespace Rendezvous
namespace Coordinator

/-- Polls, latches the events and does the work they allow. -/
def pollAndServe (c : Coordinator) (turn : Turn) : Stage Coordinator :=
  match c.host.poll (c.waitTime c.host.clock) turn with
  | (.error .interrupted, host) => .going { c with host := host }
  | (.error kind, host) => .stopped { c with host := host } (.io kind)
  | (.ok events, host) => (events.foldl latch { c with host := host }).serve turn.lag

/-- One iteration of the loop. -/
def iterate (c : Coordinator) (turn : Turn) : Stage Coordinator :=
  { c with host := c.host.supply turn.supply }.watchSources.andThen fun c =>
    c.pollAndServe turn

/-- Takes leave when the loop is told to end, noting who is still attached. -/
def leave (c : Coordinator) : Coordinator :=
  if c.roster.isEmpty then c
  else
    let attached := c.roster.size
    let announced := c.roster.registeredCount
    let queued := c.roster.messages.size
    c.note .info
      s!"Shutting down with {attached} attached peers ({announced} announced, {queued} messages queued)"

/-- A run of the loop that is told to end during its first poll. -/
def runOnce (c : Coordinator) (turn : Turn) : Stage Coordinator :=
  (c.iterate turn).andThen fun c => .going c.leave

/-- The states at the loop's head: after a start and any number of iterations that
did not fail. -/
inductive Reachable (config : CoordinatorConfig) : Coordinator → Prop where
  | start {host : Host} {c : Coordinator} (h : Coordinator.start config host = .ok c) :
    Reachable config c
  | iterate {c : Coordinator} (turn : Turn) (before : Reachable config c)
    (h : (c.iterate turn).failure = none) : Reachable config (c.iterate turn).state

end Coordinator
end Rendezvous
