/-!
# Rendezvous.Net.Address

**Network addresses.** An IPv4 address is a 32-bit word, an IPv6 address eight
16-bit groups, and a socket address adds a port (and, for IPv6, a scope).

The wire format carries IPv4 only, so every rule about who a peer *is* goes
through `SocketAddr.ipv4View`, the IPv4 view of an address: an IPv4 address is its
own view, an IPv4-mapped IPv6 address (`::ffff:a.b.c.d`) has the view it maps,
and no other IPv6 address has one.
-/

namespace Rendezvous

/-- An IPv4 address; the first octet is the most significant byte. -/
structure Ipv4 where
  bits : UInt32
deriving DecidableEq, Repr, Inhabited

/-- An IPv6 address as its eight groups, first group first. -/
structure Ipv6 where
  groups : Vector UInt16 8
deriving DecidableEq, Repr

/-- An address of either family. -/
inductive IpAddr where
  | v4 (ip : Ipv4)
  | v6 (ip : Ipv6)
deriving DecidableEq, Repr

/-- An IPv4 address and port. -/
structure SocketV4 where
  ip : Ipv4
  port : UInt16
deriving DecidableEq, Repr, Inhabited

/-- An IPv6 address and port, with the scope that a link-local address needs. The flow
information of such an address is left out: the text of an address does not give any, and the
system reports none to a socket that has not asked for it, so it is 0 in every address that a
program here parses or receives, and no two of them differ in it alone. -/
structure SocketV6 where
  ip : Ipv6
  port : UInt16
  scope : UInt32
deriving DecidableEq, Repr

/-- A transport address of either family. Addresses of different families are
different even when one maps the other. -/
inductive SocketAddr where
  | v4 (addr : SocketV4)
  | v6 (addr : SocketV6)
deriving DecidableEq, Repr

/-! ### Octets -/

namespace Ipv4

/-- The address with the given octets. -/
def ofOctets (a b c d : UInt8) : Ipv4 :=
  ⟨a.toUInt32 <<< 24 ||| b.toUInt32 <<< 16 ||| c.toUInt32 <<< 8 ||| d.toUInt32⟩

/-- The four octets, most significant first. -/
def octets (ip : Ipv4) : List UInt8 :=
  [(ip.bits >>> 24).toUInt8, (ip.bits >>> 16).toUInt8, (ip.bits >>> 8).toUInt8,
    ip.bits.toUInt8]

/-- `0.0.0.0`, the address that binds every interface. -/
def unspecified : Ipv4 := ⟨0⟩

end Ipv4

namespace Ipv6

/-- `::`, the address that binds every interface. -/
def unspecified : Ipv6 := ⟨Vector.replicate 8 0⟩

/-- The IPv4 address that an address of the form `::ffff:a.b.c.d` maps. -/
def mappedV4 (ip : Ipv6) : Option Ipv4 :=
  if ip.groups.toList.take 6 = [0, 0, 0, 0, 0, 0xffff] then
    some ⟨ip.groups[6].toUInt32 <<< 16 ||| ip.groups[7].toUInt32⟩
  else
    none

end Ipv6

/-! ### Views -/

/-- The socket address of an address and a port, in the unscoped zone. -/
def IpAddr.withPort (port : UInt16) : IpAddr → SocketAddr
  | .v4 ip => .v4 ⟨ip, port⟩
  | .v6 ip => .v6 ⟨ip, port, 0⟩

namespace SocketAddr

/-- The port of an address of either family. -/
def port : SocketAddr → UInt16
  | .v4 addr => addr.port
  | .v6 addr => addr.port

/-- Is the address an IPv4 one? A mapped address is not. -/
def isV4 : SocketAddr → Bool
  | .v4 _ => true
  | .v6 _ => false

/-- The IPv4 view: the address itself, or the one that an IPv6 address maps. -/
def ipv4View : SocketAddr → Option SocketV4
  | .v4 addr => some addr
  | .v6 addr => addr.ip.mappedV4.map fun ip => ⟨ip, addr.port⟩

@[simp] theorem ipv4View_v4 (addr : SocketV4) : (SocketAddr.v4 addr).ipv4View = some addr := rfl

end SocketAddr

end Rendezvous
