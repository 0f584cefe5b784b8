import Rendezvous.Net.Address
import Rendezvous.Timing.Timer

/-!
# Rendezvous.Coordinator.Config

**What a coordinator is told at start:** where to listen, and how long to wait.
-/

namespace Rendezvous

/-- The port of control connections, unless told otherwise. -/
def defaultControlPort : UInt16 := 8080

/-- The port of the packet socket, unless told otherwise. -/
def defaultStunPort : UInt16 := 8081

/-- The longest wait for events, unless told otherwise. -/
def defaultPollTimeout : Duration := .ofMillis 1000

/-- The settings of a coordinator. -/
structure CoordinatorConfig where
  bind : IpAddr
  controlPort : UInt16
  stunPort : UInt16
  /-- How long a peer may be silent; `none` for ever. -/
  idleTimeout : Option Duration
  /-- The longest wait for events. -/
  pollTimeout : Duration
deriving DecidableEq, Repr

namespace CoordinatorConfig

/-- Every interface, the default ports, and no idle timeout. -/
def default : CoordinatorConfig :=
  ⟨.v4 .unspecified, defaultControlPort, defaultStunPort, none, defaultPollTimeout⟩

/-- The address of the control listener. -/
def controlAddr (config : CoordinatorConfig) : SocketAddr :=
  config.bind.withPort config.controlPort

/-- The address of the packet socket. -/
def stunAddr (config : CoordinatorConfig) : SocketAddr :=
  config.bind.withPort config.stunPort

end CoordinatorConfig

end Rendezvous
