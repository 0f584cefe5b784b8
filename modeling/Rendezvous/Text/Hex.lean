/-!
# Rendezvous.Text.Hex

**Hexadecimal numbers** in lower case.
-/

namespace Rendezvous

/-- A number in hexadecimal, without leading zeros. -/
def hexText (n : Nat) : String :=
  String.ofList (Nat.toDigits 16 n)

/-- A number in hexadecimal, filled up with zeros to a width. -/
def hexTextPadded (width n : Nat) : String :=
  let digits := Nat.toDigits 16 n
  String.ofList (List.replicate (width - digits.length) '0' ++ digits)

end Rendezvous
