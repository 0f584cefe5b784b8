import Rendezvous.Peer.State

/-!
# Rendezvous.Peer.Polling

**Before and after a client's poll.** Before it, both sources are watched for what
they need (`watchSources`), and the wait is chosen (`waitTime`): none at all
while latched readiness still has work, else until the session's timer. After it,
the events are latched (`latch`).
-/

namespace Rendezvous
namespace Client

/-! ### Interest -/

/-- Is writability of the control connection of use? Until the connection is
known to be connected, it tells that. -/
def controlHasOutput (c : Client) : Bool :=
  !c.connected || c.session.hasControl || c.control.hasInFlight

/-- Are datagrams queued? -/
def packetHasOutput (c : Client) : Bool := !c.session.packetQueue.isEmpty

/-- Watches the control connection for what it needs. -/
def watchControl (c : Client) : Stage Client :=
  let wanted := Interest.onDemand c.controlHasOutput
  if wanted = c.controlWatch then .going c
  else
    match c.host.reregister (.stream c.control.id) tokenOfControl wanted with
    | (some kind, host) => .stopped { c with host := host } (.io kind)
    | (none, host) => .going { c with host := host, controlWatch := wanted }

/-- Watches the packet socket for what it needs. -/
def watchPackets (c : Client) : Stage Client :=
  let wanted := Interest.onDemand c.packetHasOutput
  if wanted = c.packetWatch then .going c
  else
    match c.host.reregister .packetSocket tokenOfClientPackets wanted with
    | (some kind, host) => .stopped { c with host := host } (.io kind)
    | (none, host) => .going { c with host := host, packetWatch := wanted }

/-- Watches both sources for what they need. -/
def watchSources (c : Client) : Stage Client :=
  c.watchControl.andThen watchPackets

/-! ### The wait -/

/-- Does latched readiness of the control connection have work? -/
def controlWork (c : Client) : Bool :=
  c.controlLatch.readable || (c.controlLatch.writable && c.controlHasOutput)

/-- Does latched readiness of the packet socket have work? -/
def packetWork (c : Client) : Bool :=
  c.packetLatch.readable || (c.packetLatch.writable && c.packetHasOutput)

/-- How long to wait for events. -/
def waitTime (c : Client) (now : Instant) : Duration :=
  if c.controlWork || c.packetWork then .zero
  else shortestWait c.config.pollTimeout [c.session.timeout now]

/-! ### Events -/

/-- Latches an event. -/
def latch (c : Client) (event : Event) : Client :=
  if event.token = tokenOfControl then
    { c with controlLatch := c.controlLatch.merge event.flags }
  else if event.token = tokenOfClientPackets then
    { c with packetLatch := c.packetLatch.merge event.flags }
  else
    c.note .trace s!"Event for unknown token {event.token}"

end Client
end Rendezvous
