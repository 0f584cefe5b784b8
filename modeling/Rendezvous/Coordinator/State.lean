import Rendezvous.Channel.Packet
import Rendezvous.Coordinator.Config
import Rendezvous.Coordinator.Counters
import Rendezvous.Coordinator.Roster
import Rendezvous.Coordinator.Observation
import Rendezvous.Host.Stage

/-!
# Rendezvous.Coordinator.State

**The coordinator between iterations.** One poller watches the control listener,
the packet socket and every control connection. What it reported and what has not
been used up is latched; what has not been sent is queued.

The listener has token 0, the packet socket token 1, and a member in slot `n` of
the roster token `n + 2`.
-/

namespace Rendezvous

/-- The token of the control listener. -/
def tokenOfListener : Nat := 0

/-- The token of the packet socket. -/
def tokenOfPackets : Nat := 1

/-- The token of the member in slot zero. -/
def firstMemberToken : Nat := 2

/-- The token of a member. -/
def tokenOfMember (handle : Handle) : Nat := firstMemberToken + handle.index

/-- The initial size of the coordinator's scratch memory. -/
def coordinatorScratch : Nat := 16384

/-- The state of a coordinator. -/
structure Coordinator where
  config : CoordinatorConfig
  host : Host
  /-- Is there a connection to accept, as far as is known? -/
  listenerLatch : Bool
  packetLatch : Latch
  /-- What the packet socket is watched for. -/
  packetWatch : Interest
  /-- Datagrams to send. -/
  outbox : Outbox
  roster : Roster
  /-- Scratch memory for encoding, freed after every iteration. -/
  scratch : Scratch
  /-- Messages just read off a control connection; empty between connections. -/
  decoded : List Message
  counters : Counters

namespace Coordinator

/-! ### Starting -/

/-- Opens the sockets and registers them. A failure comes with the system as it
was left. -/
def start (config : CoordinatorConfig) (host : Host) : Except (IoKind × Host) Coordinator := do
  if let some kind := host.openings.poller then throw (kind, host)
  let (failure, host) := host.bindTcp config.controlAddr
  if let some kind := failure then throw (kind, host)
  let (failure, host) := host.register .listener tokenOfListener .read
  if let some kind := failure then throw (kind, host)
  let (failure, host) := host.bindUdp config.stunAddr
  if let some kind := failure then throw (kind, host)
  let (failure, host) := host.register .packetSocket tokenOfPackets .read
  if let some kind := failure then throw (kind, host)
  let host := host.note .info s!"Control listener on {config.controlAddr}"
  let host := host.note .info s!"STUN socket on {config.stunAddr}"
  return {
    config := config
    host := host
    listenerLatch := false
    packetLatch := .clear
    packetWatch := .read
    outbox := []
    roster := .empty
    scratch := .ofCapacity coordinatorScratch
    decoded := []
    counters := .startingAt host.clock }

/-! ### Small changes -/

/-- Adds a record to the log. -/
def note (c : Coordinator) (level : Level) (text : String) : Coordinator :=
  { c with host := c.host.note level text }

/-- Adds records to the log. -/
def write (c : Coordinator) (log : Log) : Coordinator :=
  { c with host := c.host.write log }

/-- Lets some time pass. -/
def elapse (c : Coordinator) (lag : Duration) : Coordinator :=
  { c with host := c.host.elapse lag }

/-- Changes a member in place. -/
def modifyMember (c : Coordinator) (handle : Handle) (f : Member → Member) : Coordinator :=
  { c with roster := c.roster.modify handle f }

/-- Brings the gauge of attached connections up to date. -/
def countMembers (c : Coordinator) : Coordinator :=
  { c with counters := { c.counters with activePeers := UInt64.ofNat c.roster.size } }

/-! ### Losing a member -/

/-- Why a member is dropped. -/
inductive Departure where
  | channel (error : ChannelFailure)
  | idle
deriving DecidableEq, Repr

/-- The text of a departure. -/
def Departure.message : Departure → String
  | channel error => error.message
  | idle => "transport error: idle timeout"

/-- The record of a departure: an orderly one is no cause for alarm. -/
def Departure.record (departure : Departure) (addr : SocketAddr) : LogEntry :=
  match departure with
  | .channel .closed => ⟨.info, s!"Peer {addr} disconnected"⟩
  | departure => ⟨.warn, s!"Dropping peer {addr}: {departure.message}"⟩

/-- Removes a member: the poller forgets it, its messages and its address are
released, and its stream is closed. -/
def dismiss (c : Coordinator) (handle : Handle) (departure : Departure) : Coordinator :=
  match c.roster.detach handle with
  | (none, _) => c
  | (some member, roster) =>
    let (failure, host) := c.host.deregister (.stream member.stream.id)
    let host :=
      match failure with
      | some kind => host.note .debug s!"Deregister of {member.addr} failed: {kind}"
      | none => host
    let host := host.write [departure.record member.addr]
    let counters := { c.counters with disconnects := c.counters.disconnects + 1 }
    let host := host.close member.stream.id
    { c with host := host, roster := roster, counters := counters }.countMembers

end Coordinator

end Rendezvous
