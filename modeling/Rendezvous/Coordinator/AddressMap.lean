import Rendezvous.Memory.Slab
import Rendezvous.Net.Address

/-!
# Rendezvous.Coordinator.AddressMap

**Who announced from which address.** A map from IPv4 addresses to handles that
keeps the first binding of a key: binding a key that is present changes nothing.

It is a hash table of fixed size. The nodes of all buckets share a slab, so a
removed node's slot is used again, and each bucket is the head of a chain of
nodes. The bucket of a key is the remainder of `address * 2 ^ 32 + port`.
-/

namespace Rendezvous

/-- How many buckets there are. -/
def bucketCount : Nat := 1024

namespace SocketV4

/-- The address in the upper half of a 64-bit word, the port in the lower. -/
def hash (key : SocketV4) : Nat :=
  key.ip.bits.toNat * 4294967296 + key.port.toNat

/-- The bucket of a key. -/
def bucket (key : SocketV4) : Fin bucketCount :=
  ⟨key.hash % bucketCount, Nat.mod_lt _ (by decide)⟩

end SocketV4

/-- A binding and the next node of its chain. -/
structure AddressNode where
  key : SocketV4
  owner : Handle
  next : Option Handle
deriving DecidableEq, Repr

/-- Bindings in chains, by bucket. -/
structure AddressMap where
  heads : Vector (Option Handle) bucketCount
  nodes : Slab AddressNode

namespace AddressMap

/-- The map without bindings. -/
def empty : AddressMap := ⟨Vector.replicate bucketCount none, .empty⟩

instance : Inhabited AddressMap := ⟨empty⟩

/-- How many keys are bound. -/
def size (map : AddressMap) : Nat := map.nodes.size

/-- The nodes of a chain from a link on, following at most `steps` links. -/
def chainFrom (nodes : Slab AddressNode) : (steps : Nat) → Option Handle →
    List (Handle × AddressNode)
  | steps + 1, some handle =>
    match nodes.get? handle with
    | some node => (handle, node) :: chainFrom nodes steps node.next
    | none => []
  | _, _ => []

/-- The chain in which a key belongs. No chain has more nodes than there are
slots. -/
def chain (map : AddressMap) (key : SocketV4) : List (Handle × AddressNode) :=
  chainFrom map.nodes map.nodes.capacity map.heads[key.bucket]

/-- The handle bound to a key. -/
def get? (map : AddressMap) (key : SocketV4) : Option Handle :=
  ((map.chain key).find? fun entry => entry.2.key = key).map fun entry => entry.2.owner

/-- Is a key bound? -/
def contains (map : AddressMap) (key : SocketV4) : Bool :=
  (map.get? key).isSome

/-- Binds a key unless it is bound; answers whether it was not. -/
def insert (map : AddressMap) (key : SocketV4) (owner : Handle) : Bool × AddressMap :=
  if map.contains key then (false, map)
  else
    let (handle, nodes) := map.nodes.insert ⟨key, owner, map.heads[key.bucket]⟩
    (true, ⟨map.heads.set key.bucket (some handle), nodes⟩)

/-- Makes a chain go on with `next` after its part `before`, which may be empty. -/
def relink (map : AddressMap) (key : SocketV4) (before : List (Handle × AddressNode))
    (next : Option Handle) : AddressMap :=
  match before.getLast? with
  | some (handle, _) =>
    { map with nodes := map.nodes.modify handle fun node => { node with next := next } }
  | none => { map with heads := map.heads.set key.bucket next }

/-- Removes the binding of a key, answering the handle that it was bound to. -/
def remove (map : AddressMap) (key : SocketV4) : Option Handle × AddressMap :=
  let chain := map.chain key
  let before := chain.takeWhile fun entry => entry.2.key ≠ key
  match chain.drop before.length with
  | [] => (none, map)
  | (handle, node) :: _ =>
    let map := map.relink key before node.next
    let (removed, nodes) := map.nodes.remove handle
    (removed.map (·.owner), { map with nodes := nodes })

end AddressMap

end Rendezvous
