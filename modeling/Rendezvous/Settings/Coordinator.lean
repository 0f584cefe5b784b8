import Rendezvous.Coordinator.Config
import Rendezvous.Net.AddressReader
import Rendezvous.Settings.Source

/-!
# Rendezvous.Settings.Coordinator

**The settings of a coordinator**, from defaults, a file and flags. An idle timeout
of zero seconds means that there is none.
-/

namespace Rendezvous
namespace CoordinatorConfig

/-- The settings that a file may change. -/
structure FileFields where
  bind : Option String
  controlPort : Option UInt16
  stunPort : Option UInt16
  idleTimeoutSecs : Option Nat
  pollTimeoutMillis : Option Nat

/-- The names of the fields, in the order of their declaration. -/
def fieldNames : List String :=
  ["bind", "control_port", "stun_port", "idle_timeout_secs", "poll_timeout_ms"]

/-- The fields with the given values. -/
def FileFields.ofValues : List JsonValue → Option FileFields
  | [bind, controlPort, stunPort, idleTimeoutSecs, pollTimeoutMillis] => do
    return {
      bind := ← bind.asText
      controlPort := ← controlPort.asPort
      stunPort := ← stunPort.asPort
      idleTimeoutSecs := ← idleTimeoutSecs.asCount
      pollTimeoutMillis := ← pollTimeoutMillis.asCount }
  | _ => none

/-- Reads the fields of a file. -/
def FileFields.read (files : Files) (path : String) : Except SettingsError FileFields := do
  let values ← files.fields fieldNames path
  match FileFields.ofValues values with
  | some fields => return fields
  | none => throw (.malformed path)

/-- The idle timeout of a number of seconds; zero seconds are no timeout. -/
def idleTimeoutOfSecs (secs : Nat) : Option Duration :=
  if secs = 0 then none else some (.ofSecs secs)

/-- Settings changed by a file. -/
def withFile (config : CoordinatorConfig) (file : FileFields) :
    Except SettingsError CoordinatorConfig := do
  let bind ← setting "bind" file.bind IpAddr.parse? config.bind
  return {
    bind := bind
    controlPort := file.controlPort.getD config.controlPort
    stunPort := file.stunPort.getD config.stunPort
    idleTimeout := (file.idleTimeoutSecs.map idleTimeoutOfSecs).getD config.idleTimeout
    pollTimeout := (file.pollTimeoutMillis.map Duration.ofMillis).getD config.pollTimeout }

/-- Settings changed by the flags of the command line. -/
def withFlags (config : CoordinatorConfig) (args : List String) :
    Except SettingsError CoordinatorConfig := do
  let flag := argAfter args
  let idleOf := fun text => (readCount text).map idleTimeoutOfSecs
  let millisOf := fun text => (readCount text).map Duration.ofMillis
  let bind ← setting "--bind" (flag "--bind") IpAddr.parse? config.bind
  let controlPort ← setting "--control-port" (flag "--control-port") readPort config.controlPort
  let stunPort ← setting "--stun-port" (flag "--stun-port") readPort config.stunPort
  let idleTimeout ←
    setting "--idle-timeout-secs" (flag "--idle-timeout-secs") idleOf config.idleTimeout
  let pollTimeout ←
    setting "--poll-timeout-ms" (flag "--poll-timeout-ms") millisOf config.pollTimeout
  return ⟨bind, controlPort, stunPort, idleTimeout, pollTimeout⟩

/-- The settings that a command line asks for. The file comes before the flags, also
when something is wrong with both. -/
def ofArgs (files : Files) (args : List String) : Except SettingsError CoordinatorConfig := do
  let config ←
    match argAfter args fileFlag with
    | none => pure default
    | some path => withFile default (← FileFields.read files path)
  config.withFlags args

end CoordinatorConfig
end Rendezvous
