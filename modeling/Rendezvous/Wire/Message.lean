import Rendezvous.Net.AddressText
import Rendezvous.Wire.Bytes

/-!
# Rendezvous.Wire.Message

**The messages of the protocol.** A peer asks for its public address
(`stunRequest`), is told it (`stunResponse`), announces its address pair
(`connect`), is told of others (`peersToConnect`), and refreshes its NAT binding
(`keepAlive`). Addresses are IPv4 throughout.
-/

namespace Rendezvous

/-- The address pair that a peer announces. -/
structure PeerEntry where
  /-- The address seen from outside the peer's NAT. -/
  publicAddr : SocketV4
  /-- The address inside the peer's own network. -/
  localAddr : SocketV4
deriving DecidableEq, Repr, Inhabited

/-- The public address, with the local one in parentheses. -/
def PeerEntry.text (entry : PeerEntry) : String :=
  s!"{entry.publicAddr} (local {entry.localAddr})"

instance : ToString PeerEntry := ⟨PeerEntry.text⟩

/-- A message of the protocol. -/
inductive Message where
  /-- Asks at which address the coordinator sees the sender. -/
  | stunRequest
  /-- The address at which the coordinator saw the receiver. -/
  | stunResponse (observed : SocketV4)
  /-- Refreshes a NAT binding. -/
  | keepAlive
  /-- Announces the sender's address pair. -/
  | connect (entry : PeerEntry)
  /-- Peers that the receiver should try to reach. -/
  | peersToConnect (entries : List PeerEntry)
deriving DecidableEq, Repr, Inhabited

/-- The kinds of message. -/
inductive MessageKind where
  | stunRequest
  | stunResponse
  | keepAlive
  | connect
  | peersToConnect
deriving DecidableEq, Repr

namespace MessageKind

/-- The type tag on the wire. -/
def tag : MessageKind → UInt8
  | stunRequest => 1
  | stunResponse => 2
  | keepAlive => 3
  | connect => 4
  | peersToConnect => 5

/-- The kind of message that a tag announces. -/
def ofTag (tag : UInt8) : Except CodecError MessageKind :=
  if tag = 1 then .ok stunRequest
  else if tag = 2 then .ok stunResponse
  else if tag = 3 then .ok keepAlive
  else if tag = 4 then .ok connect
  else if tag = 5 then .ok peersToConnect
  else .error (.unknownType tag)

@[simp] theorem ofTag_tag (kind : MessageKind) : ofTag kind.tag = .ok kind := by
  cases kind <;> rfl

end MessageKind

namespace Message

/-- The kind of a message. -/
def kind : Message → MessageKind
  | stunRequest => .stunRequest
  | stunResponse _ => .stunResponse
  | keepAlive => .keepAlive
  | connect _ => .connect
  | peersToConnect _ => .peersToConnect

/-- The text of a message in log records. -/
def text : Message → String
  | stunRequest => "STUN_REQUEST"
  | stunResponse observed => s!"STUN_RESPONSE {observed}"
  | keepAlive => "KEEP_ALIVE"
  | connect entry => s!"CONNECT {entry}"
  | peersToConnect entries =>
    let listed := entries.map fun entry => s!" [{entry}]"
    s!"PEERS_TO_CONNECT count={entries.length}" ++ String.join listed

instance : ToString Message := ⟨text⟩

end Message

/-- Messages waiting to be sent as datagrams, with their targets, first one first. -/
abbrev Outbox := List (Message × SocketAddr)

end Rendezvous
