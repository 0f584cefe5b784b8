import Rendezvous.Text.Quoted

/-!
# Rendezvous.Settings.Error

**Why settings are refused.** A file cannot be read or is not in the right form,
or a flag or a field of the file has a value that is of no use.
-/

namespace Rendezvous

/-- Why a file has no text. -/
inductive FileFault where
  | missing
  /-- The path has a null character, so that it names no file. -/
  | unnameable
  /-- The bytes of the file are not UTF-8. -/
  | notText
deriving DecidableEq, Repr

/-- The text of a file fault. -/
def FileFault.message : FileFault → String
  | missing => "No such file or directory (os error 2)"
  | unnameable => "file name contained an unexpected NUL byte"
  | notText => "stream did not contain valid UTF-8"

/-- Why settings are refused. -/
inductive SettingsError where
  | unreadable (path : String) (fault : FileFault)
  /-- The text of the file is not an object or a list of the fields. -/
  | malformed (path : String)
  /-- A flag or a field has a value that is of no use. -/
  | invalid (name value : String)
deriving DecidableEq, Repr

namespace SettingsError

/-- The text of a refusal. -/
def message : SettingsError → String
  | unreadable path fault => s!"cannot read {path}: {fault.message}"
  | malformed path => s!"invalid config {path}"
  | invalid name value => s!"invalid {name}: {quoted value}"

/-- Is there another failure underneath? -/
def hasSource : SettingsError → Bool
  | invalid _ _ => false
  | _ => true

/-- A record with named parts. -/
def recordText (name : String) (parts : List (String × String)) : String :=
  let part := fun (key, value) => key ++ ": " ++ value
  name ++ " \x7b " ++ ", ".intercalate (parts.map part) ++ " \x7d"

/-- A file fault that is not the system's, with its parts. -/
def plainDetail (kind : String) (fault : FileFault) : String :=
  recordText "Error" [("kind", kind), ("message", quoted fault.message)]

/-- A file fault with all its parts. -/
def faultDetail : FileFault → String
  | .missing =>
    recordText "Os"
      [("code", "2"), ("kind", "NotFound"), ("message", quoted "No such file or directory")]
  | .unnameable => plainDetail "InvalidInput" .unnameable
  | .notText => plainDetail "InvalidData" .notText

/-- A refusal with all its parts, as the command line reports it. -/
def detail : SettingsError → String
  | unreadable path fault =>
    recordText "Io" [("path", quoted path), ("source", faultDetail fault)]
  | malformed path => recordText "Json" [("path", quoted path)]
  | invalid name value => recordText "Invalid" [("name", quoted name), ("value", quoted value)]

end SettingsError

end Rendezvous
