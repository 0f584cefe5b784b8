import Rendezvous.Settings.Number

/-!
# Rendezvous.Settings.Document

**Settings files.** A settings file is JSON: either an object, whose keys name
fields, or an array, which gives the fields in the order of their declaration. The
value of a field is `null`, which leaves the field unset, a string, or a natural
number; no field takes anything else, so nothing else is read.

Reading goes through tokens. A number is `0` or digits that do not start with `0`;
what makes it a fraction or gives it a sign or an exponent is no token, and neither
is a number that is followed by more digits.
-/

namespace Rendezvous

/-! ### Tokens -/

/-- A token of a settings file. -/
inductive JsonToken where
  | openBrace
  | closeBrace
  | openBracket
  | closeBracket
  | comma
  | colon
  | null
  | number (value : Nat)
  | text (value : String)
deriving DecidableEq, Repr

/-- The four kinds of blank. -/
def isJsonBlank (c : Char) : Bool :=
  c = ' ' || c = '\t' || c = '\n' || c = '\r'

/-- The value of a hexadecimal digit of either case. -/
def hexDigitValue (c : Char) : Option Nat :=
  if c.isDigit then some (c.toNat - '0'.toNat)
  else if 'a' ≤ c && c ≤ 'f' then some (c.toNat - 'a'.toNat + 10)
  else if 'A' ≤ c && c ≤ 'F' then some (c.toNat - 'A'.toNat + 10)
  else none

/-- The 16-bit unit that four hexadecimal digits spell. -/
def hexUnit (a b c d : Char) : Option Nat := do
  let a ← hexDigitValue a
  let b ← hexDigitValue b
  let c ← hexDigitValue c
  let d ← hexDigitValue d
  return ((a * 16 + b) * 16 + c) * 16 + d

/-- Is a unit the first half of a surrogate pair? -/
def isHighSurrogate (unit : Nat) : Bool := decide (0xd800 ≤ unit ∧ unit ≤ 0xdbff)

/-- Is a unit the second half of a surrogate pair? -/
def isLowSurrogate (unit : Nat) : Bool := decide (0xdc00 ≤ unit ∧ unit ≤ 0xdfff)

/-- The character that a surrogate pair stands for. -/
def surrogatePair (high low : Nat) : Char :=
  Char.ofNat (0x10000 + (high - 0xd800) * 0x400 + (low - 0xdc00))

/-- The character that a one-letter escape stands for. -/
def simpleEscape : Char → Option Char
  | '"' => some '"'
  | '\\' => some '\\'
  | '/' => some '/'
  | 'b' => some '\x08'
  | 'f' => some '\x0c'
  | 'n' => some '\n'
  | 'r' => some '\r'
  | 't' => some '\t'
  | _ => none

/-- Reads a string after its opening quote, up to and with its closing quote. A
surrogate must be one of a pair, and a control character must be escaped. -/
def stringBody : List Char → Option (List Char × List Char)
  | [] => none
  | '"' :: rest => some ([], rest)
  | '\\' :: 'u' :: a :: b :: c :: d :: rest =>
    match hexUnit a b c d with
    | none => none
    | some unit =>
      if isHighSurrogate unit then
        match rest with
        | '\\' :: 'u' :: e :: f :: g :: h :: rest =>
          match hexUnit e f g h with
          | none => none
          | some low =>
            if isLowSurrogate low then
              (stringBody rest).map fun (cs, rest) => (surrogatePair unit low :: cs, rest)
            else
              none
        | _ => none
      else if isLowSurrogate unit then none
      else (stringBody rest).map fun (cs, rest) => (Char.ofNat unit :: cs, rest)
  | '\\' :: c :: rest =>
    match simpleEscape c with
    | none => none
    | some c => (stringBody rest).map fun (cs, rest) => (c :: cs, rest)
  | c :: rest =>
    if c.toNat < 0x20 || c = '\\' then none
    else (stringBody rest).map fun (cs, rest) => (c :: cs, rest)

/-- Reads a token at the head of a text without blanks before it. -/
def JsonToken.read : List Char → Option (JsonToken × List Char)
  | '\x7b' :: rest => some (.openBrace, rest)
  | '\x7d' :: rest => some (.closeBrace, rest)
  | '[' :: rest => some (.openBracket, rest)
  | ']' :: rest => some (.closeBracket, rest)
  | ',' :: rest => some (.comma, rest)
  | ':' :: rest => some (.colon, rest)
  | 'n' :: 'u' :: 'l' :: 'l' :: rest => some (.null, rest)
  | '"' :: rest => (stringBody rest).map fun (cs, rest) => (.text (String.ofList cs), rest)
  | c :: rest =>
    if !c.isDigit then none
    else if c = '0' then
      if (rest.head?.any Char.isDigit) then none else some (.number 0, rest)
    else
      let digits := c :: rest.takeWhile Char.isDigit
      (decimalValue digits).map fun n => (.number n, rest.dropWhile Char.isDigit)
  | [] => none

/-- A string takes up at least its closing quote. -/
theorem length_lt_of_stringBody {text cs rest : List Char}
    (h : stringBody text = some (cs, rest)) : rest.length < text.length := by
  fun_induction stringBody text generalizing cs <;>
    grind [Option.map_eq_some_iff, List.length_cons]

/-- A token takes up at least one character. -/
theorem length_lt_of_read {text rest : List Char} {token : JsonToken}
    (h : JsonToken.read text = some (token, rest)) : rest.length < text.length := by
  unfold JsonToken.read at h
  split at h
  case h_8 =>
    obtain ⟨_, hu, hv⟩ := Option.map_eq_some_iff.1 h
    cases hv
    exact Nat.lt_succ_of_lt (length_lt_of_stringBody hu)
  case h_9 c tail _ _ _ _ _ _ _ _ =>
    have hd := (List.dropWhile_sublist (p := Char.isDigit) (l := tail)).length_le
    split at h
    · cases h
    · split at h
      · split at h <;> grind
      · obtain ⟨_, -, hv⟩ := Option.map_eq_some_iff.1 h
        cases hv
        exact Nat.lt_succ_of_le hd
  all_goals grind

/-- The tokens of a text. -/
def JsonToken.readAll (text : List Char) : Option (List JsonToken) :=
  match text with
  | [] => some []
  | c :: rest =>
    if isJsonBlank c then readAll rest
    else
      match _h : JsonToken.read (c :: rest) with
      | none => none
      | some (token, after) =>
        (readAll after).map (token :: ·)
termination_by text.length
decreasing_by
  · exact Nat.lt_succ_self _
  · exact length_lt_of_read ‹_›

/-! ### Documents -/

/-- The value of a field. -/
inductive JsonValue where
  | null
  | number (value : Nat)
  | text (value : String)
deriving DecidableEq, Repr

/-- What a settings file says. -/
inductive Document where
  /-- Named fields. -/
  | object (fields : List (String × JsonValue))
  /-- Fields in the order of their declaration. -/
  | array (values : List JsonValue)
deriving DecidableEq, Repr

/-- The value that a token is. -/
def JsonValue.ofToken : JsonToken → Option JsonValue
  | .null => some .null
  | .number n => some (.number n)
  | .text s => some (.text s)
  | _ => none

namespace Document

/-- Reads the fields of an object after one field, to the end of the text. -/
def moreFields : List JsonToken → Option (List (String × JsonValue))
  | [.closeBrace] => some []
  | .comma :: .text key :: .colon :: token :: rest => do
    let value ← JsonValue.ofToken token
    let fields ← moreFields rest
    return (key, value) :: fields
  | _ => none

/-- Reads the values of an array after one value, to the end of the text. -/
def moreValues : List JsonToken → Option (List JsonValue)
  | [.closeBracket] => some []
  | .comma :: token :: rest => do
    let value ← JsonValue.ofToken token
    let values ← moreValues rest
    return value :: values
  | _ => none

/-- Reads a document that all tokens together are. -/
def ofTokens : List JsonToken → Option Document
  | [.openBrace, .closeBrace] => some (.object [])
  | .openBrace :: rest => (moreFields (.comma :: rest)).map .object
  | [.openBracket, .closeBracket] => some (.array [])
  | .openBracket :: rest => (moreValues (.comma :: rest)).map .array
  | _ => none

/-- Reads a document. -/
def parse? (text : String) : Option Document :=
  (JsonToken.readAll text.toList).bind ofTokens

/-- The values of the declared fields, in the order of their declaration: `null`
where the document has none. An object may name each declared field once and no
other; an array may not be longer than the declaration. -/
def select (names : List String) : Document → Option (List JsonValue)
  | object fields =>
    let keys := fields.map (·.1)
    if keys.all names.contains && keys.eraseDups.length = keys.length then
      some (names.map fun name => (fields.lookup name).getD .null)
    else
      none
  | array values =>
    if values.length ≤ names.length then
      some (values ++ List.replicate (names.length - values.length) .null)
    else
      none

end Document

namespace JsonValue

/-- A field that is a text, if it is set. -/
def asText : JsonValue → Option (Option String)
  | null => some none
  | text s => some (some s)
  | number _ => none

/-- A field that is a number below a bound, if it is set. -/
def asNumber (bound : Nat) : JsonValue → Option (Option Nat)
  | null => some none
  | number n => if n < bound then some (some n) else none
  | text _ => none

/-- A field that is a port, if it is set. -/
def asPort (value : JsonValue) : Option (Option UInt16) :=
  (value.asNumber bound16).map (·.map UInt16.ofNat)

/-- A field that is a count, if it is set. -/
def asCount (value : JsonValue) : Option (Option Nat) :=
  value.asNumber bound64

end JsonValue

end Rendezvous
