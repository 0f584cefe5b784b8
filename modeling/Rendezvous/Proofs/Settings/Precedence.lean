import Rendezvous.Proofs.Settings.Layers
import Rendezvous.Settings.Coordinator
import Rendezvous.Settings.Peer

/-!
# Rendezvous.Proofs.Settings.Precedence

**Flags come before the file and the file before the defaults**, for every setting on its own
and for both programs. What is wrong with the file is reported before what is wrong with the
flags, even if a flag would have replaced the field, and no setting is accepted that would keep
a peer from waiting between two datagrams.

The settings are listed with what they accept; `PeerConfig.ofArgs_eq` and
`CoordinatorConfig.ofArgs_eq` show that the programs read these and nothing else.
-/

namespace Rendezvous

/-! ### Kinds of settings -/

namespace Setting

/-- An address, as a text in both layers. -/
def address (flag field : String) (default : IpAddr) : Setting IpAddr String :=
  { flag := flag, field := field, read := IpAddr.parse?, use := IpAddr.parse?, shown := id,
    shownField := id, default := default }

/-- A port; what is no port does not get through the reading of the file. -/
def port (flag field : String) (default : UInt16) : Setting UInt16 UInt16 :=
  { flag := flag, field := field, read := readPort, use := some, shown := id,
    shownField := fun port => toString port.toNat, default := default }

/-- A setting that a count gives, whatever the count is. -/
def count {α : Type} (flag field : String) (meaning : Nat → α) (default : α) : Setting α Nat :=
  { flag := flag, field := field, read := fun text => (readCount text).map meaning
    use := fun n => some (meaning n), shown := id, shownField := toString, default := default }

/-- A time of some milliseconds, at least one. -/
def positiveMillis (n : Nat) : Option Duration := if n = 0 then none else some (.ofMillis n)

/-- An interval in milliseconds. A count that is refused is reported as a count. -/
def interval (flag field : String) (default : Duration) : Setting Duration Nat :=
  { flag := flag, field := field, read := fun text => (readCount text).bind positiveMillis
    use := positiveMillis
    shown := fun text => ((readCount text).map toString).getD text
    shownField := toString, default := default }

/-- The longest wait of both programs. -/
def pollTimeout : Setting Duration Nat :=
  count "--poll-timeout-ms" "poll_timeout_ms" .ofMillis defaultPollTimeout

theorem nanos_pos_of_positiveMillis {n : Nat} {duration : Duration}
    (h : positiveMillis n = some duration) : 0 < duration.nanos := by
  unfold positiveMillis at h
  split at h
  · cases h
  · cases h
    exact Nat.mul_pos (Nat.pos_of_ne_zero ‹_›) (by decide)

/-- An interval is not zero, whatever layer it comes from. -/
theorem Chosen.nanos_pos {flag field : String} {default value : Duration} {args : List String}
    {given : Option Nat} (h : (interval flag field default).Chosen args given value)
    (hdefault : 0 < default.nanos) : 0 < value.nanos := by
  refine h.of_all (P := fun duration => 0 < duration.nanos) ?_ ?_ hdefault
  · intro text value hread
    obtain ⟨n, -, hn⟩ := Option.bind_eq_some_iff.1 hread
    exact nanos_pos_of_positiveMillis hn
  · exact fun n value => nanos_pos_of_positiveMillis

/-! Whatever the file gives for a port or a count is of use. -/

@[simp] theorem fieldFaults_port (flag field : String) (default : UInt16) (given : Option UInt16) :
    (port flag field default).fieldFaults given = [] := by
  cases given <;> rfl

@[simp] theorem fieldFaults_count {α : Type} (flag field : String) (meaning : Nat → α)
    (default : α) (given : Option Nat) :
    (count flag field meaning default).fieldFaults given = [] := by
  cases given <;> rfl

@[simp] theorem fieldValue_port (flag field : String) (default : UInt16) (given : Option UInt16) :
    (port flag field default).fieldValue given = given.getD default := by
  cases given <;> rfl

@[simp] theorem fieldValue_count {α : Type} (flag field : String) (meaning : Nat → α)
    (default : α) (given : Option Nat) :
    (count flag field meaning default).fieldValue given = (given.map meaning).getD default := by
  cases given <;> rfl

end Setting

/-! ### The peer -/

namespace PeerConfig

open Setting

def serverSetting : Setting IpAddr String := address "--server" "server" default.server

def controlPortSetting : Setting UInt16 UInt16 :=
  port "--control-port" "control_port" default.controlPort

def stunPortSetting : Setting UInt16 UInt16 := port "--stun-port" "stun_port" default.stunPort

def retrySetting : Setting Duration Nat :=
  Setting.interval "--stun-retry-ms" "stun_retry_ms" default.pace.retry

def refreshSetting : Setting Duration Nat :=
  Setting.interval "--keepalive-ms" "keepalive_ms" default.pace.refresh

/-- Every setting has the value that was chosen for it. -/
structure Layered (args : List String) (file : Option FileFields) (config : PeerConfig) :
    Prop where
  server : serverSetting.Chosen args (file.bind FileFields.server) config.server
  controlPort : controlPortSetting.Chosen args (file.bind FileFields.controlPort)
    config.controlPort
  stunPort : stunPortSetting.Chosen args (file.bind FileFields.stunPort) config.stunPort
  retry : retrySetting.Chosen args (file.bind FileFields.stunRetryMillis) config.pace.retry
  refresh : refreshSetting.Chosen args (file.bind FileFields.keepAliveMillis) config.pace.refresh
  pollTimeout : Setting.pollTimeout.Chosen args (file.bind FileFields.pollTimeoutMillis)
    config.pollTimeout

/-- The layers of a peer's settings. -/
def layering : Layering PeerConfig FileFields where
  flags := [serverSetting.flag, controlPortSetting.flag, stunPortSetting.flag, retrySetting.flag,
    refreshSetting.flag, Setting.pollTimeout.flag]
  read := FileFields.read
  fieldFaults := fun file =>
    [serverSetting.fieldFaults (file.bind FileFields.server),
      controlPortSetting.fieldFaults (file.bind FileFields.controlPort),
      stunPortSetting.fieldFaults (file.bind FileFields.stunPort),
      retrySetting.fieldFaults (file.bind FileFields.stunRetryMillis),
      refreshSetting.fieldFaults (file.bind FileFields.keepAliveMillis),
      Setting.pollTimeout.fieldFaults (file.bind FileFields.pollTimeoutMillis)].flatten
  flagFaults := fun args =>
    [serverSetting.flagFaults args, controlPortSetting.flagFaults args,
      stunPortSetting.flagFaults args, retrySetting.flagFaults args,
      refreshSetting.flagFaults args, Setting.pollTimeout.flagFaults args].flatten
  Layered := Layered

/-- The settings that the file leaves. -/
def fromFile (file : Option FileFields) : PeerConfig :=
  { server := serverSetting.fieldValue (file.bind FileFields.server)
    controlPort := controlPortSetting.fieldValue (file.bind FileFields.controlPort)
    stunPort := stunPortSetting.fieldValue (file.bind FileFields.stunPort)
    pace := {
      retry := retrySetting.fieldValue (file.bind FileFields.stunRetryMillis)
      refresh := refreshSetting.fieldValue (file.bind FileFields.keepAliveMillis) }
    pollTimeout := Setting.pollTimeout.fieldValue (file.bind FileFields.pollTimeoutMillis) }

/-- The settings that the flags leave. -/
def fromArgs (args : List String) (file : Option FileFields) : PeerConfig :=
  { server := serverSetting.finalValue args (file.bind FileFields.server)
    controlPort := controlPortSetting.finalValue args (file.bind FileFields.controlPort)
    stunPort := stunPortSetting.finalValue args (file.bind FileFields.stunPort)
    pace := {
      retry := retrySetting.finalValue args (file.bind FileFields.stunRetryMillis)
      refresh := refreshSetting.finalValue args (file.bind FileFields.keepAliveMillis) }
    pollTimeout := Setting.pollTimeout.finalValue args (file.bind FileFields.pollTimeoutMillis) }

theorem interval_eq_checked (name : String) (millis : Option Nat) (current : Duration) :
    interval name millis current =
      checked (unusable name millis positiveMillis toString)
        ((millis.bind positiveMillis).getD current) := by
  cases millis with
  | none => rfl
  | some n => cases n <;> rfl

/-- A count that is read and then taken for an interval is an interval that is read. -/
theorem countFlag_interval_bind {args : List String} {name field : String}
    {default current : Duration} {f : Duration → Except SettingsError PeerConfig}
    {more : List SettingsError} {result : PeerConfig}
    (h : f (((argAfter args name).bind fun text => (readCount text).bind positiveMillis).getD
      current) = checked more result) :
    (countFlag args name >>= fun millis => interval name millis current >>= f) =
      checked ((Setting.interval name field default).flagFaults args ++ more) result := by
  have hread : (countFlag args name >>= fun millis => interval name millis current) =
      checked ((Setting.interval name field default).flagFaults args)
        (((argAfter args name).bind fun text => (readCount text).bind positiveMillis).getD
          current) := by
    unfold countFlag flagFaults Setting.interval
    cases argAfter args name with
    | none => rfl
    | some text =>
        simp only [setting, unusable, Option.bind_some]
        cases readCount text with
        | none => rfl
        | some n => cases n <;> rfl
  rw [← bind_assoc, hread]
  exact checked_bind h

/-- A count that is read is a setting that is read. -/
theorem countFlag_eq_checked {α : Type} (args : List String) (name field : String)
    (meaning : Nat → α) (default : α) :
    countFlag args name =
      checked ((Setting.count name field meaning default).flagFaults args)
        ((argAfter args name).bind readCount) := by
  unfold countFlag flagFaults Setting.count
  cases argAfter args name with
  | none => rfl
  | some text =>
      simp only [setting, unusable, Option.bind_some]
      cases readCount text <;> rfl

theorem withFile_eq (file : FileFields) :
    withFile default file = checked (layering.fieldFaults (some file)) (fromFile (some file)) := by
  have hfaults : layering.fieldFaults (some file) =
      serverSetting.fieldFaults file.server ++
        (retrySetting.fieldFaults file.stunRetryMillis ++
          (refreshSetting.fieldFaults file.keepAliveMillis ++ [])) := by
    simp [layering, controlPortSetting, stunPortSetting, Setting.pollTimeout]
  rw [hfaults, withFile, setting_eq_checked, interval_eq_checked, interval_eq_checked]
  refine checked_bind (checked_bind (checked_bind ?_))
  simp only [fromFile, controlPortSetting, stunPortSetting, Setting.pollTimeout, fieldValue_port,
    fieldValue_count]
  rfl

theorem withFlags_eq (args : List String) (file : Option FileFields) :
    (fromFile file).withFlags args = checked (layering.flagFaults args) (fromArgs args file) := by
  have hfaults : layering.flagFaults args =
      serverSetting.flagFaults args ++ (controlPortSetting.flagFaults args ++
        (stunPortSetting.flagFaults args ++ (retrySetting.flagFaults args ++
          (refreshSetting.flagFaults args ++ (Setting.pollTimeout.flagFaults args ++ []))))) := rfl
  rw [hfaults, withFlags]
  simp only [setting_eq_checked]
  refine checked_bind (checked_bind (checked_bind (countFlag_interval_bind
    (countFlag_interval_bind ?_))))
  rw [countFlag_eq_checked args "--poll-timeout-ms" "poll_timeout_ms" Duration.ofMillis
    defaultPollTimeout]
  refine checked_bind ?_
  rw [Option.map_bind]
  rfl

theorem ofArgs_eq (files : Files) (args : List String) :
    ofArgs files args = layering.outcome fromArgs files args := by
  rw [Layering.outcome_eq rfl withFile_eq withFlags_eq, ofArgs]
  cases argAfter args fileFlag <;> rfl

theorem layered_iff {args : List String} {file : Option FileFields} {config : PeerConfig}
    (hfield : layering.fieldFaults file = []) (hflag : layering.flagFaults args = []) :
    Layered args file config ↔ config = fromArgs args file := by
  simp only [layering, List.flatten_eq_nil_iff, List.forall_mem_cons] at hfield hflag
  obtain ⟨hf₁, hf₂, hf₃, hf₄, hf₅, hf₆, -⟩ := hfield
  obtain ⟨ha₁, ha₂, ha₃, ha₄, ha₅, ha₆, -⟩ := hflag
  constructor
  · rintro ⟨hserver, hcontrol, hstun, hretry, hrefresh, hpoll⟩
    obtain ⟨server, controlPort, stunPort, ⟨retry, refresh⟩, pollTimeout⟩ := config
    simp only [fromArgs, PeerConfig.mk.injEq, Pace.mk.injEq]
    exact ⟨(chosen_iff hf₁ ha₁).1 hserver, (chosen_iff hf₂ ha₂).1 hcontrol,
      (chosen_iff hf₃ ha₃).1 hstun,
      ⟨(chosen_iff hf₄ ha₄).1 hretry, (chosen_iff hf₅ ha₅).1 hrefresh⟩,
      (chosen_iff hf₆ ha₆).1 hpoll⟩
  · rintro rfl
    exact ⟨(chosen_iff hf₁ ha₁).2 rfl, (chosen_iff hf₂ ha₂).2 rfl, (chosen_iff hf₃ ha₃).2 rfl,
      (chosen_iff hf₄ ha₄).2 rfl, (chosen_iff hf₅ ha₅).2 rfl, (chosen_iff hf₆ ha₆).2 rfl⟩

theorem ofArgs_congr {args args' : List String}
    (h : ∀ flag ∈ fileFlag :: layering.flags, argAfter args flag = argAfter args' flag)
    (files : Files) : ofArgs files args = ofArgs files args' := by
  simp only [layering, List.forall_mem_cons, serverSetting, address, controlPortSetting,
    stunPortSetting, port, retrySetting, refreshSetting, Setting.interval, Setting.pollTimeout,
    count] at h
  obtain ⟨hfile, hserver, hcontrol, hstun, hretry, hrefresh, hpoll, -⟩ := h
  have hflags : ∀ config : PeerConfig, config.withFlags args = config.withFlags args' := by
    intro config
    simp only [withFlags, countFlag, hserver, hcontrol, hstun, hretry, hrefresh, hpoll]
  rw [ofArgs, ofArgs, hfile]
  simp only [hflags]

theorem explained : layering.Explains ofArgs :=
  Layering.explains ofArgs_eq (fun _ _ _ => layered_iff) fun files _ _ h => ofArgs_congr h files

end PeerConfig

/-! ### The coordinator -/

namespace CoordinatorConfig

open Setting

def bindSetting : Setting IpAddr String := address "--bind" "bind" default.bind

def controlPortSetting : Setting UInt16 UInt16 :=
  port "--control-port" "control_port" default.controlPort

def stunPortSetting : Setting UInt16 UInt16 := port "--stun-port" "stun_port" default.stunPort

def idleTimeoutSetting : Setting (Option Duration) Nat :=
  count "--idle-timeout-secs" "idle_timeout_secs" idleTimeoutOfSecs default.idleTimeout

/-- Every setting has the value that was chosen for it. -/
structure Layered (args : List String) (file : Option FileFields) (config : CoordinatorConfig) :
    Prop where
  bind : bindSetting.Chosen args (file.bind FileFields.bind) config.bind
  controlPort : controlPortSetting.Chosen args (file.bind FileFields.controlPort)
    config.controlPort
  stunPort : stunPortSetting.Chosen args (file.bind FileFields.stunPort) config.stunPort
  idleTimeout : idleTimeoutSetting.Chosen args (file.bind FileFields.idleTimeoutSecs)
    config.idleTimeout
  pollTimeout : Setting.pollTimeout.Chosen args (file.bind FileFields.pollTimeoutMillis)
    config.pollTimeout

/-- The layers of a coordinator's settings. -/
def layering : Layering CoordinatorConfig FileFields where
  flags := [bindSetting.flag, controlPortSetting.flag, stunPortSetting.flag,
    idleTimeoutSetting.flag, Setting.pollTimeout.flag]
  read := FileFields.read
  fieldFaults := fun file =>
    [bindSetting.fieldFaults (file.bind FileFields.bind),
      controlPortSetting.fieldFaults (file.bind FileFields.controlPort),
      stunPortSetting.fieldFaults (file.bind FileFields.stunPort),
      idleTimeoutSetting.fieldFaults (file.bind FileFields.idleTimeoutSecs),
      Setting.pollTimeout.fieldFaults (file.bind FileFields.pollTimeoutMillis)].flatten
  flagFaults := fun args =>
    [bindSetting.flagFaults args, controlPortSetting.flagFaults args,
      stunPortSetting.flagFaults args, idleTimeoutSetting.flagFaults args,
      Setting.pollTimeout.flagFaults args].flatten
  Layered := Layered

/-- The settings that the file leaves. -/
def fromFile (file : Option FileFields) : CoordinatorConfig :=
  { bind := bindSetting.fieldValue (file.bind FileFields.bind)
    controlPort := controlPortSetting.fieldValue (file.bind FileFields.controlPort)
    stunPort := stunPortSetting.fieldValue (file.bind FileFields.stunPort)
    idleTimeout := idleTimeoutSetting.fieldValue (file.bind FileFields.idleTimeoutSecs)
    pollTimeout := Setting.pollTimeout.fieldValue (file.bind FileFields.pollTimeoutMillis) }

/-- The settings that the flags leave. -/
def fromArgs (args : List String) (file : Option FileFields) : CoordinatorConfig :=
  { bind := bindSetting.finalValue args (file.bind FileFields.bind)
    controlPort := controlPortSetting.finalValue args (file.bind FileFields.controlPort)
    stunPort := stunPortSetting.finalValue args (file.bind FileFields.stunPort)
    idleTimeout := idleTimeoutSetting.finalValue args (file.bind FileFields.idleTimeoutSecs)
    pollTimeout := Setting.pollTimeout.finalValue args (file.bind FileFields.pollTimeoutMillis) }

/-- A timeout is not zero, whatever layer it comes from. -/
theorem nanos_pos_of_chosen {args : List String} {given : Option Nat} {idle : Option Duration}
    (h : idleTimeoutSetting.Chosen args given idle) {limit : Duration} (hlimit : idle = some limit) :
    0 < limit.nanos := by
  have hsecs : ∀ secs, idleTimeoutOfSecs secs = some limit → 0 < limit.nanos := by
    intro secs hsome
    unfold idleTimeoutOfSecs at hsome
    split at hsome
    next => cases hsome
    next hpos =>
      cases hsome
      exact Nat.mul_pos (Nat.pos_of_ne_zero hpos) (by decide)
  subst hlimit
  cases h with
  | flag _ reads =>
      obtain ⟨secs, -, hsome⟩ := Option.map_eq_some_iff.1 reads
      exact hsecs secs hsome
  | file _ _ reads => exact hsecs _ (Option.some.inj reads)

theorem withFile_eq (file : FileFields) :
    withFile default file = checked (layering.fieldFaults (some file)) (fromFile (some file)) := by
  have hfaults : layering.fieldFaults (some file) = bindSetting.fieldFaults file.bind ++ [] := by
    simp [layering, controlPortSetting, stunPortSetting, idleTimeoutSetting, Setting.pollTimeout]
  rw [hfaults, withFile, setting_eq_checked]
  refine checked_bind ?_
  simp only [fromFile, controlPortSetting, stunPortSetting, idleTimeoutSetting,
    Setting.pollTimeout, fieldValue_port, fieldValue_count]
  rfl

theorem withFlags_eq (args : List String) (file : Option FileFields) :
    (fromFile file).withFlags args = checked (layering.flagFaults args) (fromArgs args file) := by
  have hfaults : layering.flagFaults args =
      bindSetting.flagFaults args ++ (controlPortSetting.flagFaults args ++
        (stunPortSetting.flagFaults args ++ (idleTimeoutSetting.flagFaults args ++
          (Setting.pollTimeout.flagFaults args ++ [])))) := rfl
  rw [hfaults, withFlags]
  simp only [setting_eq_checked]
  exact checked_bind (checked_bind (checked_bind (checked_bind (checked_bind rfl))))

theorem ofArgs_eq (files : Files) (args : List String) :
    ofArgs files args = layering.outcome fromArgs files args := by
  rw [Layering.outcome_eq rfl withFile_eq withFlags_eq, ofArgs]
  cases argAfter args fileFlag <;> rfl

theorem layered_iff {args : List String} {file : Option FileFields} {config : CoordinatorConfig}
    (hfield : layering.fieldFaults file = []) (hflag : layering.flagFaults args = []) :
    Layered args file config ↔ config = fromArgs args file := by
  simp only [layering, List.flatten_eq_nil_iff, List.forall_mem_cons] at hfield hflag
  obtain ⟨hf₁, hf₂, hf₃, hf₄, hf₅, -⟩ := hfield
  obtain ⟨ha₁, ha₂, ha₃, ha₄, ha₅, -⟩ := hflag
  constructor
  · rintro ⟨hbind, hcontrol, hstun, hidle, hpoll⟩
    obtain ⟨bind, controlPort, stunPort, idleTimeout, pollTimeout⟩ := config
    simp only [fromArgs, CoordinatorConfig.mk.injEq]
    exact ⟨(chosen_iff hf₁ ha₁).1 hbind, (chosen_iff hf₂ ha₂).1 hcontrol,
      (chosen_iff hf₃ ha₃).1 hstun, (chosen_iff hf₄ ha₄).1 hidle, (chosen_iff hf₅ ha₅).1 hpoll⟩
  · rintro rfl
    exact ⟨(chosen_iff hf₁ ha₁).2 rfl, (chosen_iff hf₂ ha₂).2 rfl, (chosen_iff hf₃ ha₃).2 rfl,
      (chosen_iff hf₄ ha₄).2 rfl, (chosen_iff hf₅ ha₅).2 rfl⟩

theorem ofArgs_congr {args args' : List String}
    (h : ∀ flag ∈ fileFlag :: layering.flags, argAfter args flag = argAfter args' flag)
    (files : Files) : ofArgs files args = ofArgs files args' := by
  simp only [layering, List.forall_mem_cons, bindSetting, address, controlPortSetting,
    stunPortSetting, port, idleTimeoutSetting, Setting.pollTimeout, count] at h
  obtain ⟨hfile, hbind, hcontrol, hstun, hidle, hpoll, -⟩ := h
  have hflags : ∀ config : CoordinatorConfig, config.withFlags args = config.withFlags args' := by
    intro config
    simp only [withFlags, hbind, hcontrol, hstun, hidle, hpoll]
  rw [ofArgs, ofArgs, hfile]
  simp only [hflags]

theorem explained : layering.Explains ofArgs :=
  Layering.explains ofArgs_eq (fun _ _ _ => layered_iff) fun _ _ _ h => ofArgs_congr h _

end CoordinatorConfig

/-! ### Both programs -/

/-- **Settings come in layers.** Both programs take each setting from its flag, else from the
file, else from the defaults, and are refused for the first thing that is wrong with the file
or, after that, the flags. An interval is never zero; a timeout of zero seconds is none, also
where the file has one. -/
theorem settings_layered :
    (∀ args flag value, argAfter args flag = some value ↔ Follows args flag value) ∧
    PeerConfig.layering.Explains PeerConfig.ofArgs ∧
    CoordinatorConfig.layering.Explains CoordinatorConfig.ofArgs ∧
    (∀ files args config, PeerConfig.ofArgs files args = .ok config →
      0 < config.pace.retry.nanos ∧ 0 < config.pace.refresh.nanos) ∧
    ∀ files args config, CoordinatorConfig.ofArgs files args = .ok config →
      (∀ limit, config.idleTimeout = some limit → 0 < limit.nanos) ∧
      ∀ text, Follows args "--idle-timeout-secs" text → readCount text = some 0 →
        config.idleTimeout = none := by
  refine ⟨fun _ _ _ => argAfter_eq_some_iff, PeerConfig.explained, CoordinatorConfig.explained,
    fun files args config hconfig => ?_, fun files args config hconfig => ?_⟩
  · obtain ⟨-, file, -, hlayered⟩ := (PeerConfig.explained.accepted files args config).1 hconfig
    exact ⟨hlayered.retry.nanos_pos (by decide), hlayered.refresh.nanos_pos (by decide)⟩
  · obtain ⟨-, file, -, hlayered⟩ :=
      (CoordinatorConfig.explained.accepted files args config).1 hconfig
    refine ⟨fun limit => CoordinatorConfig.nanos_pos_of_chosen hlayered.idleTimeout, ?_⟩
    intro text hfollows hzero
    exact hlayered.idleTimeout.eq_of_follows hfollows (congrArg (Option.map _) hzero)

/-- A file sets a port and a timeout of a minute; the flags replace the one and cancel the other.
A file that is not there is reported before an address that is none. -/
theorem settings_layered_cancelled_timeout :
    let files : Files := fun path =>
      if path = "tent" then
        -- The text "[null,7000,null,60]".
        some [91, 110, 117, 108, 108, 44, 55, 48, 48, 48, 44, 110, 117, 108, 108, 44, 54, 48, 93]
      else none
    let args := ["--idle-timeout-secs", "0", "--config", "tent", "--control-port", "7100"]
    (∃ config, CoordinatorConfig.ofArgs files args = .ok config ∧ config.controlPort = 7100 ∧
      config.idleTimeout = none) ∧
    PeerConfig.ofArgs files ["--server", "here", "--config", "gone"] =
      .error (.unreadable "gone" .missing) := by
  intro files args
  have hconfig : CoordinatorConfig.ofArgs files args =
      .ok ⟨.v4 .unspecified, 7100, defaultStunPort, none, defaultPollTimeout⟩ := by
    with_unfolding_all rfl
  refine ⟨⟨_, hconfig, rfl, ?_⟩, ?_⟩
  · exact (settings_layered.2.2.2.2 files args _ hconfig).2 "0" ⟨[], _, rfl, List.not_mem_nil⟩
      (by decide)
  · exact (settings_layered.2.1.refused files _ _).2 rfl

end Rendezvous
