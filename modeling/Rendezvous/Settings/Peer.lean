import Rendezvous.Net.AddressReader
import Rendezvous.Peer.Config
import Rendezvous.Settings.Source

/-!
# Rendezvous.Settings.Peer

**The settings of a peer**, from defaults, a file and flags. The intervals at which
a session asks and refreshes must not be zero.
-/

namespace Rendezvous
namespace PeerConfig

/-- The settings that a file may change. -/
structure FileFields where
  server : Option String
  controlPort : Option UInt16
  stunPort : Option UInt16
  stunRetryMillis : Option Nat
  keepAliveMillis : Option Nat
  pollTimeoutMillis : Option Nat

/-- The names of the fields, in the order of their declaration. -/
def fieldNames : List String :=
  ["server", "control_port", "stun_port", "stun_retry_ms", "keepalive_ms", "poll_timeout_ms"]

/-- The fields with the given values. -/
def FileFields.ofValues : List JsonValue → Option FileFields
  | [server, controlPort, stunPort, stunRetryMillis, keepAliveMillis, pollTimeoutMillis] => do
    return {
      server := ← server.asText
      controlPort := ← controlPort.asPort
      stunPort := ← stunPort.asPort
      stunRetryMillis := ← stunRetryMillis.asCount
      keepAliveMillis := ← keepAliveMillis.asCount
      pollTimeoutMillis := ← pollTimeoutMillis.asCount }
  | _ => none

/-- Reads the fields of a file. -/
def FileFields.read (files : Files) (path : String) : Except SettingsError FileFields := do
  let values ← files.fields fieldNames path
  match FileFields.ofValues values with
  | some fields => return fields
  | none => throw (.malformed path)

/-- An interval of a number of milliseconds, if one is given; zero is refused. -/
def interval (name : String) (millis : Option Nat) (current : Duration) :
    Except SettingsError Duration :=
  match millis with
  | none => .ok current
  | some 0 => .error (.invalid name "0")
  | some millis => .ok (.ofMillis millis)

/-- Settings changed by a file. -/
def withFile (config : PeerConfig) (file : FileFields) : Except SettingsError PeerConfig := do
  let server ← setting "server" file.server IpAddr.parse? config.server
  let retry ← interval "stun_retry_ms" file.stunRetryMillis config.pace.retry
  let refresh ← interval "keepalive_ms" file.keepAliveMillis config.pace.refresh
  return {
    server := server
    controlPort := file.controlPort.getD config.controlPort
    stunPort := file.stunPort.getD config.stunPort
    pace := ⟨retry, refresh⟩
    pollTimeout := (file.pollTimeoutMillis.map Duration.ofMillis).getD config.pollTimeout }

/-- The count that a flag gives, if it is used. -/
def countFlag (args : List String) (name : String) : Except SettingsError (Option Nat) :=
  setting name (argAfter args name) (fun text => (readCount text).map some) none

/-- Settings changed by the flags of the command line. -/
def withFlags (config : PeerConfig) (args : List String) : Except SettingsError PeerConfig := do
  let flag := argAfter args
  let server ← setting "--server" (flag "--server") IpAddr.parse? config.server
  let controlPort ← setting "--control-port" (flag "--control-port") readPort config.controlPort
  let stunPort ← setting "--stun-port" (flag "--stun-port") readPort config.stunPort
  let retryMillis ← countFlag args "--stun-retry-ms"
  let retry ← interval "--stun-retry-ms" retryMillis config.pace.retry
  let refreshMillis ← countFlag args "--keepalive-ms"
  let refresh ← interval "--keepalive-ms" refreshMillis config.pace.refresh
  let pollMillis ← countFlag args "--poll-timeout-ms"
  let pollTimeout := (pollMillis.map Duration.ofMillis).getD config.pollTimeout
  return ⟨server, controlPort, stunPort, ⟨retry, refresh⟩, pollTimeout⟩

/-- The settings that a command line asks for. The file comes before the flags, also
when something is wrong with both. -/
def ofArgs (files : Files) (args : List String) : Except SettingsError PeerConfig := do
  let config ←
    match argAfter args fileFlag with
    | none => pure default
    | some path => withFile default (← FileFields.read files path)
  config.withFlags args

end PeerConfig
end Rendezvous
