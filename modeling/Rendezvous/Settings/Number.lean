/-!
# Rendezvous.Settings.Number

**Reading numbers of fixed range.** A number is one or more decimal digits, with at
most one plus sign in front. Leading zeros do not matter; the value does.
-/

namespace Rendezvous

/-- The number of values of a 16-bit word. -/
def bound16 : Nat := 65536

/-- The number of values of a 64-bit word. -/
def bound64 : Nat := 18446744073709551616

/-- The value of decimal digits, most significant first; nothing if a character is
not a digit. -/
def decimalValue (digits : List Char) : Option Nat :=
  digits.foldlM (fun n c => if c.isDigit then some (n * 10 + (c.toNat - '0'.toNat)) else none) 0

/-- A text without its plus sign. -/
def withoutPlus : List Char → List Char
  | '+' :: digits => digits
  | digits => digits

/-- Reads a number below a bound. -/
def readNumber (bound : Nat) (text : String) : Option Nat :=
  let digits := withoutPlus text.toList
  if digits.isEmpty then none
  else (decimalValue digits).filter fun n => decide (n < bound)

/-- Reads a port number. -/
def readPort (text : String) : Option UInt16 :=
  (readNumber bound16 text).map UInt16.ofNat

/-- Reads a count of seconds or milliseconds. -/
def readCount (text : String) : Option Nat :=
  readNumber bound64 text

end Rendezvous
