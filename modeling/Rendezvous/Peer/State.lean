import Rendezvous.Channel.Packet
import Rendezvous.Host.Stage
import Rendezvous.Peer.Config

/-!
# Rendezvous.Peer.State

**A peer's client between iterations.** It has one control connection, to the
coordinator, and one packet socket; both feed the session. The connection is
dialled without waiting: it is watched for writing until it is known to be
connected.

The control connection has token 0 and the packet socket token 1.
-/

namespace Rendezvous

/-- The token of the control connection. -/
def tokenOfControl : Nat := 0

/-- The token of a client's packet socket. -/
def tokenOfClientPackets : Nat := 1

/-- The initial size of a client's scratch memory. -/
def clientScratch : Nat := 4096

/-- The near ends of a client's sockets. -/
structure NearEnds where
  /-- Of the control connection, if it can be told. -/
  stream : Option SocketAddr
  packet : SocketAddr
deriving DecidableEq, Repr

/-- Why a client did not start. -/
inductive StartFailure where
  | io (kind : IoKind)
  /-- The wire format cannot carry the near end of the control connection. -/
  | noIpv4Local
deriving DecidableEq, Repr

/-- The text of a failed start. -/
def StartFailure.message : StartFailure → String
  | io kind => kind.message
  | noIpv4Local => "control connection has no IPv4 local address"

/-- The state of a client. -/
structure Client where
  config : PeerConfig
  host : Host
  control : FramedStream
  /-- Is the control connection known to be connected? -/
  connected : Bool
  controlLatch : Latch
  /-- What the control connection is watched for. -/
  controlWatch : Interest
  packetLatch : Latch
  /-- What the packet socket is watched for. -/
  packetWatch : Interest
  session : Session
  /-- Scratch memory for encoding, freed after every iteration. -/
  scratch : Scratch
  /-- Messages just read off the control connection. -/
  decoded : List Message

namespace Client

/-- The address to which the packet socket is bound: every interface of the
coordinator's family, at any port. -/
def packetBind (config : PeerConfig) : SocketAddr :=
  if config.stunAddr.isV4 then .v4 ⟨.unspecified, 0⟩ else .v6 ⟨.unspecified, 0, 0⟩

/-- Opens and registers the packet socket next to a dialled control connection,
and finds the local address to announce. Answers the near end of the connection
and that address. -/
def openPacketSocket (config : PeerConfig) (near : NearEnds) (control : StreamId) (host : Host) :
    Except StartFailure (SocketV4 × SocketV4) × Host :=
  match host.register (.stream control) tokenOfControl .readWrite with
  | (some kind, host) => (.error (.io kind), host)
  | (none, host) =>
    match host.bindUdp (packetBind config) with
    | (some kind, host) => (.error (.io kind), host)
    | (none, host) =>
      match host.register .packetSocket tokenOfClientPackets .read with
      | (some kind, host) => (.error (.io kind), host)
      | (none, host) =>
        match near.stream with
        | none => (.error (.io .notConnected), host)
        | some stream =>
          match stream.ipv4View with
          | none => (.error .noIpv4Local, host)
          | some controlLocal => (.ok (controlLocal, ⟨controlLocal.ip, near.packet.port⟩), host)

/-- Dials the coordinator and opens the packet socket. A failure comes with the
system as it was left, the control connection closed. -/
def start (config : PeerConfig) (near : NearEnds) (host : Host) :
    Except (StartFailure × Host) Client := do
  if let some kind := host.openings.poller then throw (.io kind, host)
  match host.dial config.controlAddr with
  | (.error kind, host) => throw (.io kind, host)
  | (.ok control, host) =>
    match openPacketSocket config near control host with
    | (.error failure, host) => throw (failure, host.close control)
    | (.ok (controlLocal, announced), host) =>
      let host := host.note .info
        s!"Control connection to {config.controlAddr} from {controlLocal}"
      let host := host.note .info
        s!"Packet socket on {near.packet} (announced local {announced})"
      return {
        config := config
        host := host
        control := .ofStream control
        connected := false
        controlLatch := .clear
        controlWatch := .readWrite
        packetLatch := .clear
        packetWatch := .read
        session := .start config.stunAddr announced config.pace host.clock
        scratch := .ofCapacity clientScratch
        decoded := [] }

/-! ### Small changes -/

/-- Adds a record to the log. -/
def note (c : Client) (level : Level) (text : String) : Client :=
  { c with host := c.host.note level text }

/-- Lets some time pass. -/
def elapse (c : Client) (lag : Duration) : Client :=
  { c with host := c.host.elapse lag }

/-- Takes over the session after it has been fed something. -/
def withSession (c : Client) (session : Logged Session) : Client :=
  { c with session := session.val, host := c.host.write session.log }

end Client

end Rendezvous
