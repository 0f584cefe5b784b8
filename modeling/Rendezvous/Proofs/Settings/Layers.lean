import Rendezvous.Settings.Source

/-!
# Rendezvous.Proofs.Settings.Layers

**Layers of settings**, apart from what any program sets. A `Setting` says under which names a
flag and a field of the file give it, and which of their values are of use; `Setting.Chosen` is
the value that it ends up with: the flag's, else the file's, else the default.

Settings are read one after another and reading stops at what is of no use, so that each of
them seems to depend on all before it. `checked` undoes that: a reader is a list of faults and a
value, and to read one thing after another is to append the lists (`checked_bind`). What a
program does with its command line is then said by a `Layering` and shown by
`Layering.explains`.
-/

namespace Rendezvous

variable {α β : Type}

/-! ### The values of flags -/

/-- At its first occurrence a flag is followed by a value. -/
def Follows (args : List String) (flag value : String) : Prop :=
  ∃ before rest, args = before ++ flag :: value :: rest ∧ flag ∉ before

theorem argAfter_cons (arg : String) (args : List String) (flag : String) :
    argAfter (arg :: args) flag = if arg = flag then args.head? else argAfter args flag := by
  by_cases h : arg = flag
  · rw [if_pos h, argAfter, List.dropWhile_cons_of_neg (by simpa using h)]
    cases args <;> rfl
  · rw [if_neg h, argAfter, List.dropWhile_cons_of_pos (by simpa using h)]
    rfl

theorem follows_cons {arg : String} {args : List String} {flag value : String} :
    Follows (arg :: args) flag value ↔
      if arg = flag then args.head? = some value else Follows args flag value := by
  split
  next h =>
    subst h
    constructor
    · rintro ⟨before, rest, hargs, hfresh⟩
      cases before with
      | nil =>
          obtain ⟨-, rfl⟩ := List.cons.inj hargs
          rfl
      | cons first before =>
          obtain ⟨rfl, -⟩ := List.cons.inj hargs
          exact absurd List.mem_cons_self hfresh
    · intro hhead
      obtain ⟨rest, rfl⟩ := List.head?_eq_some_iff.1 hhead
      exact ⟨[], rest, rfl, List.not_mem_nil⟩
  next h =>
    constructor
    · rintro ⟨before, rest, hargs, hfresh⟩
      cases before with
      | nil => exact absurd (List.cons.inj hargs).1 h
      | cons first before =>
          exact ⟨before, rest, (List.cons.inj hargs).2, fun hmem =>
            hfresh (List.mem_cons_of_mem first hmem)⟩
    · rintro ⟨before, rest, rfl, hfresh⟩
      refine ⟨arg :: before, rest, rfl, fun hmem => ?_⟩
      rcases List.mem_cons.1 hmem with heq | hmem
      · exact h heq.symm
      · exact hfresh hmem

theorem argAfter_eq_some_iff {args : List String} {flag value : String} :
    argAfter args flag = some value ↔ Follows args flag value := by
  induction args with
  | nil =>
      refine iff_of_false (by simp [argAfter]) ?_
      rintro ⟨before, rest, hargs, -⟩
      cases before <;> cases hargs
  | cons arg args ih =>
      rw [argAfter_cons, follows_cons]
      split
      next => exact Iff.rfl
      next => exact ih

theorem argAfter_append {lead : List String} {flag : String} (h : flag ∉ lead)
    (args : List String) : argAfter (lead ++ args) flag = argAfter args flag := by
  induction lead with
  | nil => rfl
  | cons arg lead ih =>
      obtain ⟨hne, hrest⟩ : flag ≠ arg ∧ flag ∉ lead := by simpa using h
      rw [List.cons_append, argAfter_cons, if_neg (Ne.symm hne), ih hrest]

/-- Arguments that are flags with their values. -/
def flagged (pairs : List (String × String)) : List String :=
  pairs.flatMap fun pair => [pair.1, pair.2]

/-- If no value can be taken for the flag, its value is the one it is paired with. -/
theorem argAfter_flagged {pairs : List (String × String)} {flag value : String}
    (hnodup : (pairs.map Prod.fst).Nodup) (hvalues : ∀ pair ∈ pairs, pair.2 ≠ flag) :
    argAfter (flagged pairs) flag = some value ↔ (flag, value) ∈ pairs := by
  induction pairs with
  | nil => simp [flagged, argAfter]
  | cons pair pairs ih =>
      obtain ⟨hfresh, hnodup⟩ := List.nodup_cons.1 hnodup
      obtain ⟨hvalue, hvalues⟩ := List.forall_mem_cons.1 hvalues
      have hflagged : flagged (pair :: pairs) = pair.1 :: pair.2 :: flagged pairs := rfl
      rw [hflagged, argAfter_cons, List.mem_cons]
      split
      next hflag =>
        have hother : (flag, value) ∉ pairs := fun hmem =>
          hfresh (hflag ▸ List.mem_map_of_mem (f := Prod.fst) hmem)
        obtain ⟨first, second⟩ := pair
        subst hflag
        simp [hother, eq_comm]
      next hflag =>
        have hpair : (flag, value) ≠ pair := fun heq => hflag (heq ▸ rfl)
        rw [argAfter_cons, if_neg hvalue, ih hnodup hvalues]
        simp [hpair]

/-- The order of flags with their values does not matter. -/
theorem argAfter_flagged_perm {pairs pairs' : List (String × String)} {flag : String}
    (hperm : pairs.Perm pairs') (hnodup : (pairs.map Prod.fst).Nodup)
    (hvalues : ∀ pair ∈ pairs, pair.2 ≠ flag) :
    argAfter (flagged pairs) flag = argAfter (flagged pairs') flag := by
  have hnodup' : (pairs'.map Prod.fst).Nodup := (hperm.map Prod.fst).nodup hnodup
  have hvalues' : ∀ pair ∈ pairs', pair.2 ≠ flag := fun pair hmem =>
    hvalues pair (hperm.mem_iff.2 hmem)
  refine Option.ext fun value => ?_
  rw [argAfter_flagged hnodup hvalues, argAfter_flagged hnodup' hvalues', hperm.mem_iff]

/-! ### One setting -/

/-- A setting, which a flag or a field of the file may give. -/
structure Setting (α β : Type) where
  flag : String
  field : String
  /-- The meaning of a flag's value, if it is of use. -/
  read : String → Option α
  /-- The meaning of a field's value, if it is of use. -/
  use : β → Option α
  /-- How a flag's value is reported. -/
  shown : String → String
  /-- How a field's value is reported. -/
  shownField : β → String
  default : α

/-- What is wrong with a value, if there is one and it is of no use. -/
def unusable (name : String) (given : Option β) (use : β → Option α) (shown : β → String) :
    List SettingsError :=
  match given with
  | none => []
  | some value => if (use value).isSome then [] else [.invalid name (shown value)]

/-- A value of which nothing is wrong has a meaning. -/
theorem exists_of_unusable_eq_nil {name : String} {value : β} {use : β → Option α}
    {shown : β → String} (h : unusable name (some value) use shown = []) :
    ∃ meaning, use value = some meaning := by
  unfold unusable at h
  cases huse : use value with
  | none => simp [huse] at h
  | some meaning => exact ⟨meaning, rfl⟩

namespace Setting

variable {s : Setting α β} {args : List String} {given : Option β} {value : α}

/-- What is wrong with a flag's value. -/
def flagFaults (s : Setting α β) (args : List String) : List SettingsError :=
  unusable s.flag (argAfter args s.flag) s.read s.shown

/-- What is wrong with a field's value. -/
def fieldFaults (s : Setting α β) (given : Option β) : List SettingsError :=
  unusable s.field given s.use s.shownField

/-- The value of a setting: the flag's if it has one, else the file's if it sets one, else the
default. -/
inductive Chosen (s : Setting α β) (args : List String) (given : Option β) : α → Prop where
  | flag {text : String} {value : α} (follows : Follows args s.flag text)
    (reads : s.read text = some value) : Chosen s args given value
  | file {content : β} {value : α} (unused : ∀ text, ¬ Follows args s.flag text)
    (sets : given = some content) (reads : s.use content = some value) : Chosen s args given value
  | default (unused : ∀ text, ¬ Follows args s.flag text) (unset : given = none) :
    Chosen s args given s.default

/-- The value that the file leaves. -/
def fieldValue (s : Setting α β) (given : Option β) : α := (given.bind s.use).getD s.default

/-- The value that the flags leave. -/
def finalValue (s : Setting α β) (args : List String) (given : Option β) : α :=
  ((argAfter args s.flag).bind s.read).getD (s.fieldValue given)

/-- Where nothing is wrong, the value that the layers leave is the chosen one. -/
theorem chosen_iff (hfield : s.fieldFaults given = []) (hflag : s.flagFaults args = []) :
    s.Chosen args given value ↔ value = s.finalValue args given := by
  unfold flagFaults at hflag
  cases hused : argAfter args s.flag with
  | some text =>
      have hfollows := argAfter_eq_some_iff.1 hused
      rw [hused] at hflag
      obtain ⟨meaning, hmeaning⟩ := exists_of_unusable_eq_nil hflag
      have hfinal : s.finalValue args given = meaning := by
        rw [finalValue, hused, Option.bind_some, hmeaning, Option.getD_some]
      rw [hfinal]
      constructor
      · rintro (⟨hother, hreads⟩ | ⟨hunused, -, -⟩ | ⟨hunused, -⟩)
        · obtain rfl := Option.some.inj (hused.symm.trans (argAfter_eq_some_iff.2 hother))
          exact Option.some.inj (hreads.symm.trans hmeaning)
        · exact absurd hfollows (hunused text)
        · exact absurd hfollows (hunused text)
      · rintro rfl
        exact .flag hfollows hmeaning
  | none =>
      have hunused : ∀ text, ¬ Follows args s.flag text := by
        intro text hfollows
        rw [argAfter_eq_some_iff.2 hfollows] at hused
        cases hused
      have hfinal : s.finalValue args given = s.fieldValue given := by
        rw [finalValue, hused, Option.bind_none, Option.getD_none]
      rw [hfinal]
      cases given with
      | none =>
          constructor
          · rintro (⟨hfollows, -⟩ | ⟨-, hsets, -⟩ | -)
            · exact absurd hfollows (hunused _)
            · cases hsets
            · rfl
          · rintro rfl
            exact .default hunused rfl
      | some content =>
          obtain ⟨meaning, hmeaning⟩ := exists_of_unusable_eq_nil hfield
          have hvalue : s.fieldValue (some content) = meaning := by
            rw [fieldValue, Option.bind_some, hmeaning, Option.getD_some]
          rw [hvalue]
          constructor
          · rintro (⟨hfollows, -⟩ | ⟨-, hsets, hreads⟩ | ⟨-, hunset⟩)
            · exact absurd hfollows (hunused _)
            · obtain rfl := Option.some.inj hsets
              exact Option.some.inj (hreads.symm.trans hmeaning)
            · cases hunset
          · rintro rfl
            exact .file hunused rfl hmeaning

/-- What every layer may give is true of the chosen value. -/
theorem Chosen.of_all (h : s.Chosen args given value) {P : α → Prop}
    (hread : ∀ text value, s.read text = some value → P value)
    (huse : ∀ content value, s.use content = some value → P value) (hdefault : P s.default) :
    P value := by
  cases h with
  | flag _ reads => exact hread _ _ reads
  | file _ _ reads => exact huse _ _ reads
  | default => exact hdefault

/-- A flag that is used decides. -/
theorem Chosen.eq_of_follows (h : s.Chosen args given value) {text : String} {meaning : α}
    (hfollows : Follows args s.flag text) (hreads : s.read text = some meaning) :
    value = meaning := by
  cases h with
  | flag follows reads =>
      have hsame := (argAfter_eq_some_iff.2 follows).symm.trans (argAfter_eq_some_iff.2 hfollows)
      obtain rfl := Option.some.inj hsame
      exact Option.some.inj (reads.symm.trans hreads)
  | file unused => exact absurd hfollows (unused text)
  | default unused => exact absurd hfollows (unused text)

end Setting

/-! ### One after another -/

/-- A value, unless something is wrong; then the first of what is wrong. -/
def checked (faults : List SettingsError) (value : α) : Except SettingsError α :=
  match faults with
  | [] => .ok value
  | e :: _ => .error e

theorem checked_eq_error_iff {faults : List SettingsError} {value : α} {e : SettingsError} :
    checked faults value = .error e ↔ faults.head? = some e := by
  cases faults <;> simp [checked]

theorem checked_eq_ok_iff {faults : List SettingsError} {value result : α} :
    checked faults value = .ok result ↔ faults = [] ∧ result = value := by
  cases faults <;> simp [checked, eq_comm]

/-- To check one thing after another is to check them together. -/
theorem checked_bind {faults more : List SettingsError} {value : α} {result : β}
    {f : α → Except SettingsError β} (h : f value = checked more result) :
    (checked faults value >>= f) = checked (faults ++ more) result := by
  cases faults with
  | nil => exact h
  | cons e rest => rfl

/-- A setting that stays as it is, is read from a text, or is refused. -/
theorem setting_eq_checked (name : String) (text : Option String) (read : String → Option α)
    (current : α) :
    setting name text read current =
      checked (unusable name text read id) ((text.bind read).getD current) := by
  cases text with
  | none => rfl
  | some text =>
      simp only [setting, unusable, Option.bind_some]
      cases read text <;> rfl

/-! ### Programs -/

/-- The file that the arguments name has been read, if they name one. -/
inductive Loaded {Fields : Type} (read : String → Except SettingsError Fields)
    (args : List String) : Option Fields → Prop where
  | unnamed (unused : ∀ path, ¬ Follows args fileFlag path) : Loaded read args none
  | named {path : String} {fields : Fields} (follows : Follows args fileFlag path)
    (reads : read path = .ok fields) : Loaded read args (some fields)

/-- What comes of reading the file that the arguments name. -/
def loadFile {Fields : Type} (read : String → Except SettingsError Fields) (args : List String) :
    Except SettingsError (Option Fields) :=
  match argAfter args fileFlag with
  | none => .ok none
  | some path => (read path).map some

theorem loadFile_eq_ok_iff {Fields : Type} {read : String → Except SettingsError Fields}
    {args : List String} {file : Option Fields} :
    loadFile read args = .ok file ↔ Loaded read args file := by
  unfold loadFile
  constructor
  · intro h
    split at h
    next hunused =>
      cases h
      refine .unnamed fun path hfollows => ?_
      rw [argAfter_eq_some_iff.2 hfollows] at hunused
      cases hunused
    next path hnamed =>
      cases hread : read path with
      | error e =>
          rw [hread] at h
          cases h
      | ok fields =>
          rw [hread] at h
          cases h
          exact .named (argAfter_eq_some_iff.1 hnamed) hread
  · rintro (hunused | ⟨hfollows, hreads⟩)
    · cases hnamed : argAfter args fileFlag with
      | none => rfl
      | some path => exact absurd (argAfter_eq_some_iff.1 hnamed) (hunused path)
    · rw [argAfter_eq_some_iff.2 hfollows]
      simp only [hreads]
      rfl

/-- How a program is set up: its flags, how its file is read, what can be wrong with the file
and the flags, in the order of looking at it, and what each setting has to be. -/
structure Layering (Config Fields : Type) where
  flags : List String
  read : Files → String → Except SettingsError Fields
  fieldFaults : Option Fields → List SettingsError
  flagFaults : List String → List SettingsError
  Layered : List String → Option Fields → Config → Prop

namespace Layering

variable {Config Fields : Type}

/-- Everything that is wrong, the file before the flags. A file that cannot be read is one
fault. -/
def faults (l : Layering Config Fields) (files : Files) (args : List String) :
    List SettingsError :=
  match loadFile (l.read files) args with
  | .error e => e :: l.flagFaults args
  | .ok file => l.fieldFaults file ++ l.flagFaults args

/-- What comes of a command line, if the settings are the given ones where nothing is wrong. -/
def outcome (l : Layering Config Fields) (value : List String → Option Fields → Config)
    (files : Files) (args : List String) : Except SettingsError Config :=
  match loadFile (l.read files) args with
  | .error e => .error e
  | .ok file => checked (l.fieldFaults file ++ l.flagFaults args) (value args file)

/-- A program reads its command line as its layering says. -/
structure Explains (l : Layering Config Fields)
    (ofArgs : Files → List String → Except SettingsError Config) : Prop where
  /-- It is refused for the first thing that is wrong. -/
  refused : ∀ files args e, ofArgs files args = .error e ↔ (l.faults files args).head? = some e
  /-- It is accepted if nothing is wrong, and then every setting has the value it has to have. -/
  accepted : ∀ files args config, ofArgs files args = .ok config ↔
    l.faults files args = [] ∧ ∃ file, Loaded (l.read files) args file ∧ l.Layered args file config
  /-- Nothing matters but what follows the program's flags. -/
  flags_only : ∀ files args args',
    (∀ flag ∈ fileFlag :: l.flags, argAfter args flag = argAfter args' flag) →
    ofArgs files args = ofArgs files args'
  /-- The order of the flags does not matter, if no value looks like one of them. -/
  unordered : ∀ files lead pairs pairs', pairs.Perm pairs' → (pairs.map Prod.fst).Nodup →
    (∀ flag ∈ fileFlag :: l.flags, flag ∉ lead ∧ ∀ pair ∈ pairs, pair.2 ≠ flag) →
    ofArgs files (lead ++ flagged pairs) = ofArgs files (lead ++ flagged pairs')

/-- A program that applies its file to the defaults, if it has one, and its flags to that,
each with its own checks. -/
theorem outcome_eq {l : Layering Config Fields} {value : List String → Option Fields → Config}
    {fromFile : Option Fields → Config} {withFile : Fields → Except SettingsError Config}
    {withFlags : Config → List String → Except SettingsError Config}
    (hnone : l.fieldFaults none = [])
    (hfile : ∀ file, withFile file = checked (l.fieldFaults (some file)) (fromFile (some file)))
    (hflags : ∀ args file,
      withFlags (fromFile file) args = checked (l.flagFaults args) (value args file))
    (files : Files) (args : List String) :
    l.outcome value files args =
      match argAfter args fileFlag with
      | none => withFlags (fromFile none) args
      | some path =>
        l.read files path >>= fun file => withFile file >>= fun config => withFlags config args := by
  rw [outcome, loadFile]
  cases argAfter args fileFlag with
  | none =>
      simp only [hnone, List.nil_append]
      exact (hflags args none).symm
  | some path =>
      cases hread : l.read files path with
      | error e => simp only [hread]; rfl
      | ok file =>
          have hboth : (withFile file >>= fun config => withFlags config args) =
              checked (l.fieldFaults (some file) ++ l.flagFaults args) (value args (some file)) := by
            rw [hfile]
            exact checked_bind (hflags args (some file))
          simp only [hread]
          exact hboth.symm

/-- A program whose settings are checked one after another, first the file's and then the
flags', reads its command line as its layering says. -/
theorem explains {l : Layering Config Fields}
    {ofArgs : Files → List String → Except SettingsError Config}
    {value : List String → Option Fields → Config}
    (hofArgs : ∀ files args, ofArgs files args = l.outcome value files args)
    (hlayered : ∀ args file config, l.fieldFaults file = [] → l.flagFaults args = [] →
      (l.Layered args file config ↔ config = value args file))
    (hflags : ∀ files args args',
      (∀ flag ∈ fileFlag :: l.flags, argAfter args flag = argAfter args' flag) →
      ofArgs files args = ofArgs files args') :
    l.Explains ofArgs := by
  refine ⟨fun files args e => ?_, fun files args config => ?_, hflags, ?_⟩
  · rw [hofArgs, outcome, faults]
    cases loadFile (l.read files) args with
    | error e' => simp
    | ok file => exact checked_eq_error_iff
  · rw [hofArgs, outcome, faults]
    cases hload : loadFile (l.read files) args with
    | error e => simp
    | ok file =>
        rw [checked_eq_ok_iff]
        refine and_congr_right fun hnone => ?_
        obtain ⟨hfield, hflag⟩ := List.append_eq_nil_iff.1 hnone
        rw [← hlayered args file config hfield hflag]
        constructor
        · exact fun hconfig => ⟨file, loadFile_eq_ok_iff.1 hload, hconfig⟩
        · rintro ⟨file', hloaded, hconfig⟩
          obtain rfl := Except.ok.inj (hload.symm.trans (loadFile_eq_ok_iff.2 hloaded))
          exact hconfig
  · intro files lead pairs pairs' hperm hnodup hfree
    refine hflags files _ _ fun flag hmem => ?_
    obtain ⟨hlead, hvalues⟩ := hfree flag hmem
    rw [argAfter_append hlead, argAfter_append hlead,
      argAfter_flagged_perm hperm hnodup hvalues]

end Layering
end Rendezvous
