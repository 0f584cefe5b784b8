import Rendezvous.Net.Address

/-!
# Rendezvous.Net.AddressReader

**Reading addresses.** Each reader takes a list of characters and answers the
value with the characters left over, or nothing. A whole text is an address when
a reader consumes all of it.

* An octet has one to three digits, no leading zero, and at most 255.
* An IPv6 group has one to four hexadecimal digits. Where at least two groups
  are still open, the rest may be an IPv4 address. One `::` stands for the
  groups left out; an embedded IPv4 address cannot stand before it.
* A port is a decimal below 65536; leading zeros do not matter.
-/

namespace Rendezvous
namespace AddressReader

/-- A reader: the value read and what follows it. -/
abbrev Reader (α : Type) := List Char → Option (α × List Char)

/-! ### Numbers -/

/-- The value of a digit in a base up to sixteen; letters count in either case. -/
def digitValue (base : Nat) (c : Char) : Option Nat :=
  let value :=
    if c.isDigit then some (c.toNat - '0'.toNat)
    else if 'a' ≤ c && c ≤ 'f' then some (c.toNat - 'a'.toNat + 10)
    else if 'A' ≤ c && c ≤ 'F' then some (c.toNat - 'A'.toNat + 10)
    else none
  value.filter (· < base)

/-- The digits at the head of a text, as values, and what follows them. -/
def digits (base : Nat) : List Char → List Nat × List Char
  | [] => ([], [])
  | c :: cs =>
    match digitValue base c with
    | some d =>
      let (ds, rest) := digits base cs
      (d :: ds, rest)
    | none => ([], c :: cs)

/-- The number that digits spell, most significant first. -/
def ofDigits (base : Nat) (ds : List Nat) : Nat :=
  ds.foldl (fun n d => n * base + d) 0

/-- How a number may be written and how large it may be. -/
structure NumberFormat where
  base : Nat
  /-- Most digits allowed; `none` sets no limit. -/
  maxDigits : Option Nat
  /-- May a number of several digits start with a zero? -/
  leadingZeros : Bool
  /-- Values are below this bound. -/
  bound : Nat

/-- Up to three decimal digits below 256, without leading zeros. -/
def octetFormat : NumberFormat := ⟨10, some 3, false, 256⟩

/-- Up to four hexadecimal digits. -/
def groupFormat : NumberFormat := ⟨16, some 4, true, 65536⟩

/-- Decimal digits below 65536. -/
def portFormat : NumberFormat := ⟨10, none, true, 65536⟩

/-- Decimal digits below two to the thirty-second. -/
def scopeFormat : NumberFormat := ⟨10, none, true, 4294967296⟩

/-- Reads all digits at the head as one number of the given format. -/
def number (format : NumberFormat) : Reader Nat := fun cs =>
  let (ds, rest) := digits format.base cs
  let value := ofDigits format.base ds
  if ds.isEmpty then none
  else if format.maxDigits.any (· < ds.length) then none
  else if !format.leadingZeros && ds.head? == some 0 && 1 < ds.length then none
  else if value < format.bound then some (value, rest)
  else none

/-- Reads one given character. -/
def char (c : Char) : Reader Unit
  | d :: rest => if d = c then some ((), rest) else none
  | [] => none

/-- Reads a separator, except before the first of a sequence. -/
def separator (c : Char) (index : Nat) : Reader Unit := fun cs =>
  if index = 0 then some ((), cs) else char c cs

/-! ### Addresses -/

/-- Four octets separated by dots. -/
def ipv4 : Reader Ipv4 := fun cs => do
  let (a, cs) ← number octetFormat cs
  let (_, cs) ← char '.' cs
  let (b, cs) ← number octetFormat cs
  let (_, cs) ← char '.' cs
  let (c, cs) ← number octetFormat cs
  let (_, cs) ← char '.' cs
  let (d, cs) ← number octetFormat cs
  return (Ipv4.ofOctets (UInt8.ofNat a) (UInt8.ofNat b) (UInt8.ofNat c) (UInt8.ofNat d), cs)

/-- The two groups that hold an IPv4 address. -/
def groupsOfV4 (ip : Ipv4) : List UInt16 :=
  [(ip.bits >>> 16).toUInt16, ip.bits.toUInt16]

/-- Groups read from one side of `::`. -/
structure Groups where
  read : List UInt16
  /-- Did the sequence end in an embedded IPv4 address? -/
  endsInV4 : Bool
  rest : List Char

/-- Reads up to `room` groups, the first of them being number `index` of its
side: an embedded IPv4 address, if two groups are open and one stands here, ends
the sequence. -/
def groups (index : Nat) : (room : Nat) → List Char → Groups
  | 0, cs => ⟨[], false, cs⟩
  | room + 1, cs =>
    let embedded := do
      let (_, cs) ← separator ':' index cs
      ipv4 cs
    match (if 0 < room then embedded else none) with
    | some (ip, rest) => ⟨groupsOfV4 ip, true, rest⟩
    | none =>
      let group := do
        let (_, cs) ← separator ':' index cs
        number groupFormat cs
      match group with
      | none => ⟨[], false, cs⟩
      | some (g, rest) =>
        let more := groups (index + 1) room rest
        ⟨UInt16.ofNat g :: more.read, more.endsInV4, more.rest⟩

/-- An address of exactly eight groups; a shorter list is filled with zeros
between its front and its back part. -/
def ofParts (front back : List UInt16) : Ipv6 :=
  let middle := List.replicate (8 - front.length - back.length) 0
  let all := front ++ middle ++ back
  ⟨Vector.ofFn fun i => all[i.val]?.getD 0⟩

/-- Eight groups, or up to seven with one `::` for the zeros left out. -/
def ipv6 : Reader Ipv6 := fun cs =>
  let front := groups 0 8 cs
  if front.read.length = 8 then
    some (ofParts front.read [], front.rest)
  else if front.endsInV4 then
    none
  else do
    let (_, cs) ← char ':' front.rest
    let (_, cs) ← char ':' cs
    let back := groups 0 (7 - front.read.length) cs
    return (ofParts front.read back.read, back.rest)

/-- An address of either family. -/
def ipAddr : Reader IpAddr := fun cs =>
  match ipv4 cs with
  | some (ip, rest) => some (.v4 ip, rest)
  | none => (ipv6 cs).map fun (ip, rest) => (.v6 ip, rest)

/-- A colon and a port. -/
def portSuffix : Reader UInt16 := fun cs => do
  let (_, cs) ← char ':' cs
  let (port, cs) ← number portFormat cs
  return (UInt16.ofNat port, cs)

/-- An IPv4 address and port. -/
def socketV4 : Reader SocketV4 := fun cs => do
  let (ip, cs) ← ipv4 cs
  let (port, cs) ← portSuffix cs
  return (⟨ip, port⟩, cs)

/-- A percent sign and a scope number; none means scope zero. -/
def scope : Reader UInt32 := fun cs =>
  let written := do
    let (_, cs) ← char '%' cs
    number scopeFormat cs
  match written with
  | some (n, rest) => some (UInt32.ofNat n, rest)
  | none => some (0, cs)

/-- A bracketed IPv6 address with an optional scope, and a port. -/
def socketV6 : Reader SocketV6 := fun cs => do
  let (_, cs) ← char '[' cs
  let (ip, cs) ← ipv6 cs
  let (zone, cs) ← scope cs
  let (_, cs) ← char ']' cs
  let (port, cs) ← portSuffix cs
  return (⟨ip, port, zone⟩, cs)

/-- A socket address of either family. -/
def socketAddr : Reader SocketAddr := fun cs =>
  match socketV4 cs with
  | some (addr, rest) => some (.v4 addr, rest)
  | none => (socketV6 cs).map fun (addr, rest) => (.v6 addr, rest)

/-- The value of a text that the reader consumes to the end. -/
def whole {α : Type} (reader : Reader α) (text : String) : Option α :=
  match reader text.toList with
  | some (value, []) => some value
  | _ => none

end AddressReader

/-- Reads an address without a port. -/
def IpAddr.parse? (text : String) : Option IpAddr :=
  AddressReader.whole AddressReader.ipAddr text

/-- Reads an address with a port. -/
def SocketAddr.parse? (text : String) : Option SocketAddr :=
  AddressReader.whole AddressReader.socketAddr text

end Rendezvous
