import Rendezvous.Net.Address
import Rendezvous.Text.Hex

/-!
# Rendezvous.Net.AddressText

**Addresses as text.** IPv4 is dotted decimal; IPv6 is in canonical form: lower
case hexadecimal groups without leading zeros, the longest run of two or more
zero groups (the first of equals) written `::`, and a mapped IPv4 address dotted
after `::ffff:`. A port follows a colon, with an IPv6 address in brackets.
-/

namespace Rendezvous

/-! ### IPv4 -/

/-- Dotted decimal. -/
def Ipv4.text (ip : Ipv4) : String :=
  ".".intercalate (ip.octets.map fun octet => toString octet.toNat)

instance : ToString Ipv4 := ⟨Ipv4.text⟩

/-- Dotted decimal, a colon and the port. -/
def SocketV4.text (addr : SocketV4) : String :=
  s!"{addr.ip}:{addr.port.toNat}"

instance : ToString SocketV4 := ⟨SocketV4.text⟩

/-! ### IPv6 -/

/-- A run of zero groups: where it starts and how many groups it spans. -/
structure ZeroRun where
  start : Nat
  length : Nat
deriving DecidableEq, Repr

namespace ZeroRun

/-- Walks the groups, extending the current run over zeros and keeping the
longest run seen, the earlier one on a tie. -/
def scan : List UInt16 → Nat → ZeroRun → ZeroRun → ZeroRun
  | [], _, _, best => best
  | g :: gs, i, current, best =>
    if g = 0 then
      let start := if current.length = 0 then i else current.start
      let current : ZeroRun := ⟨start, current.length + 1⟩
      scan gs (i + 1) current (if best.length < current.length then current else best)
    else
      scan gs (i + 1) ⟨0, 0⟩ best

/-- The longest run of zero groups, the first of equals. -/
def longest (groups : List UInt16) : ZeroRun :=
  scan groups 0 ⟨0, 0⟩ ⟨0, 0⟩

end ZeroRun

/-- Groups in hexadecimal, separated by colons. -/
def groupsText (groups : List UInt16) : String :=
  ":".intercalate (groups.map fun g => hexText g.toNat)

/-- The canonical form. -/
def Ipv6.text (ip : Ipv6) : String :=
  match ip.mappedV4 with
  | some v4 => s!"::ffff:{v4}"
  | none =>
    let groups := ip.groups.toList
    let run := ZeroRun.longest groups
    if 1 < run.length then
      let before := groups.take run.start
      let after := groups.drop (run.start + run.length)
      s!"{groupsText before}::{groupsText after}"
    else
      groupsText groups

instance : ToString Ipv6 := ⟨Ipv6.text⟩

/-- The text of an address without a port. -/
def IpAddr.text : IpAddr → String
  | .v4 ip => ip.text
  | .v6 ip => ip.text

instance : ToString IpAddr := ⟨IpAddr.text⟩

/-- The bracketed address with its port; a scope other than zero is shown. -/
def SocketV6.text (addr : SocketV6) : String :=
  if addr.scope = 0 then
    s!"[{addr.ip}]:{addr.port.toNat}"
  else
    s!"[{addr.ip}%{addr.scope.toNat}]:{addr.port.toNat}"

instance : ToString SocketV6 := ⟨SocketV6.text⟩

/-- The text of a socket address. -/
def SocketAddr.text : SocketAddr → String
  | .v4 addr => addr.text
  | .v6 addr => addr.text

instance : ToString SocketAddr := ⟨SocketAddr.text⟩

end Rendezvous
