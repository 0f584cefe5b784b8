import Rendezvous.Coordinator.State

/-!
# Rendezvous.Coordinator.Polling

**Before and after a poll.** Before it, every source is watched for what it needs
(`watchSources`), and the wait is chosen (`waitTime`): none at all while
latched readiness still has work, else until the nearest deadline. After it, the
events are latched (`latch`).
-/

namespace Rendezvous
namespace Coordinator

/-! ### Interest -/

/-- Watches the packet socket for writing exactly while datagrams are queued. -/
def watchPackets (c : Coordinator) : Stage Coordinator :=
  let wanted := Interest.onDemand (!c.outbox.isEmpty)
  if wanted = c.packetWatch then .going c
  else
    match c.host.reregister .packetSocket tokenOfPackets wanted with
    | (some kind, host) => .stopped { c with host := host } (.io kind)
    | (none, host) => .going { c with host := host, packetWatch := wanted }

/-- Watches a member for writing exactly while it has something to write. A member
for which that fails is added to `failed`. -/
def watchMember (state : Coordinator × List (Handle × IoKind)) (handle : Handle) :
    Coordinator × List (Handle × IoKind) :=
  let (c, failed) := state
  match c.roster.get? handle with
  | none => (c, failed)
  | some member =>
    let wanted := Interest.onDemand member.hasOutput
    if wanted = member.watch then (c, failed)
    else
      match c.host.reregister (.stream member.stream.id) (tokenOfMember handle) wanted with
      | (some kind, host) => ({ c with host := host }, failed ++ [(handle, kind)])
      | (none, host) =>
        let watch := fun member : Member => { member with watch := wanted }
        ({ c with host := host }.modifyMember handle watch, failed)

/-- Watches every member for what it needs and drops those for which that fails. -/
def watchMembers (c : Coordinator) : Coordinator :=
  let (c, failed) := c.roster.order.foldl watchMember (c, [])
  let drop := fun (c : Coordinator) (entry : Handle × IoKind) =>
    c.dismiss entry.1 (.channel (.io entry.2))
  failed.foldl drop c

/-- Watches every source for what it needs. -/
def watchSources (c : Coordinator) : Stage Coordinator :=
  c.watchPackets.andThen fun c => .going c.watchMembers

/-! ### The wait -/

/-- Does latched readiness of the packet socket have work? -/
def packetWork (c : Coordinator) : Bool :=
  c.packetLatch.readable || (c.packetLatch.writable && !c.outbox.isEmpty)

/-- Does latched readiness of a member have work? -/
def memberWork (member : Member) : Bool :=
  member.latch.readable || (member.latch.writable && member.hasOutput)

/-- Does any latched readiness have work? -/
def hasWork (c : Coordinator) : Bool :=
  c.listenerLatch || c.packetWork || c.roster.members.toList.any fun entry => memberWork entry.2

/-- How long to wait for events. -/
def waitTime (c : Coordinator) (now : Instant) : Duration :=
  if c.hasWork then .zero
  else
    shortestWait c.config.pollTimeout
      (c.roster.members.toList.map fun entry => entry.2.timer.left now)

/-! ### Events -/

/-- Latches an event. A token without a source is left over from a connection
that is gone. -/
def latch (c : Coordinator) (event : Event) : Coordinator :=
  if event.token = tokenOfListener then { c with listenerLatch := true }
  else if event.token = tokenOfPackets then
    { c with packetLatch := c.packetLatch.merge event.flags }
  else
    match c.roster.members.occupant (event.token - firstMemberToken) with
    | some handle =>
      c.modifyMember handle fun member =>
        { member with latch := member.latch.merge event.flags }
    | none => c.note .trace s!"Event for stale token {event.token}"

end Coordinator
end Rendezvous
