import Rendezvous.Coordinator.Config
import Rendezvous.Peer.Session

/-!
# Rendezvous.Peer.Config

**What a peer is told at start:** where its coordinator is, and how long to wait.
-/

namespace Rendezvous

/-- The settings of a peer. -/
structure PeerConfig where
  server : IpAddr
  controlPort : UInt16
  stunPort : UInt16
  pace : Pace
  /-- The longest wait for events. -/
  pollTimeout : Duration
deriving DecidableEq, Repr

namespace PeerConfig

/-- A coordinator on this machine, the default ports and pace. -/
def default : PeerConfig :=
  ⟨.v4 (.ofOctets 127 0 0 1), defaultControlPort, defaultStunPort, .default, defaultPollTimeout⟩

/-- The coordinator's address for control connections. -/
def controlAddr (config : PeerConfig) : SocketAddr :=
  config.server.withPort config.controlPort

/-- The coordinator's address for datagrams. -/
def stunAddr (config : PeerConfig) : SocketAddr :=
  config.server.withPort config.stunPort

end PeerConfig

end Rendezvous
