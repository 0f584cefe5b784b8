import Rendezvous.Settings.Document
import Rendezvous.Settings.Error

/-!
# Rendezvous.Settings.Source

**Where settings come from.** Every setting has a default; a file named by
`--config` may change it, and a flag of its own may change it again. A flag's value
is the argument after its first occurrence, and a flag at the very end has none.

The files are a function from paths to contents, so that what is read from them is
a matter of values.
-/

namespace Rendezvous

/-- The contents of the files there are. -/
abbrev Files := String → Option (List UInt8)

/-- The flag that names the settings file. -/
def fileFlag : String := "--config"

/-- The argument after the first occurrence of a flag. -/
def argAfter (args : List String) (flag : String) : Option String :=
  match args.dropWhile (· ≠ flag) with
  | _ :: value :: _ => some value
  | _ => none

/-- The text of a file. -/
def Files.text (files : Files) (path : String) : Except FileFault String :=
  if path.toList.contains '\x00' then .error .unnameable
  else
    match files path with
    | none => .error .missing
    | some bytes =>
      match String.fromUTF8? (ByteArray.mk bytes.toArray) with
      | some text => .ok text
      | none => .error .notText

/-- The declared fields of a settings file. -/
def Files.fields (files : Files) (names : List String) (path : String) :
    Except SettingsError (List JsonValue) :=
  match files.text path with
  | .error fault => .error (.unreadable path fault)
  | .ok text =>
    match (Document.parse? text).bind (Document.select names) with
    | some values => .ok values
    | none => .error (.malformed path)

/-- A setting whose text, if there is one, must be readable; otherwise it stays as
it is. -/
def setting {α : Type} (name : String) (text : Option String) (read : String → Option α)
    (current : α) : Except SettingsError α :=
  match text with
  | none => .ok current
  | some text =>
    match read text with
    | some value => .ok value
    | none => .error (.invalid name text)

end Rendezvous
