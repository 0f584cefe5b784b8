import Rendezvous.Channel.Stream
import Rendezvous.Coordinator.AddressMap

/-!
# Rendezvous.Coordinator.Roster

**Attached peers and what they are told.** The roster owns every control
connection (`Member`), the control addresses that have announced, and all queued
messages. A message lives in one slab shared by all queues, in the queue of
exactly one member, until it is popped for writing or its member is removed.

`introduce` is the heart of the service: it answers the announcing member with the
entries of all others that are registered, split into lists that fit a receive
buffer, and tells each of the others about the new entry.
-/

namespace Rendezvous

/-- One control connection. -/
structure Member where
  stream : FramedStream
  /-- The far address of the connection. -/
  addr : SocketAddr
  /-- The entry last announced over the connection. -/
  entry : Option PeerEntry
  /-- Queued messages, as slots of the roster's message slab. -/
  queue : List Handle
  latch : Latch
  /-- What the poller watches the connection for. -/
  watch : Interest
  /-- Runs from the last inbound traffic. -/
  timer : Timer
deriving Repr

namespace Member

/-- A connection that has not announced anything. -/
def fresh (stream : FramedStream) (addr : SocketAddr) (timer : Timer) : Member :=
  { stream := stream, addr := addr, entry := none, queue := []
    latch := .clear, watch := .read, timer := timer }

/-- Is there anything queued or in flight? -/
def hasOutput (member : Member) : Bool :=
  !member.queue.isEmpty || member.stream.hasInFlight

end Member

/-- Attached members, announced addresses and queued messages. -/
structure Roster where
  /-- Members in the order in which they were attached. -/
  members : Slab Member
  /-- Control addresses of members that have announced. -/
  addresses : AddressMap
  messages : Slab Message

namespace Roster

/-- The roster without members. -/
def empty : Roster := ⟨.empty, .empty, .empty⟩

instance : Inhabited Roster := ⟨empty⟩

/-! ### Members -/

/-- How many members are attached. -/
def size (roster : Roster) : Nat := roster.members.size

/-- Is nobody attached? -/
def isEmpty (roster : Roster) : Bool := roster.members.isEmpty

/-- How many addresses have announced. -/
def registeredCount (roster : Roster) : Nat := roster.addresses.size

/-- The member that a handle names. -/
def get? (roster : Roster) (handle : Handle) : Option Member := roster.members.get? handle

/-- The attached members, oldest first. -/
def order (roster : Roster) : List Handle := roster.members.keys

/-- Changes a member in place. -/
def modify (roster : Roster) (handle : Handle) (f : Member → Member) : Roster :=
  { roster with members := roster.members.modify handle f }

/-- Attaches a connection. -/
def enroll (roster : Roster) (stream : FramedStream) (addr : SocketAddr) (timer : Timer) :
    Logged (Handle × Roster) := do
  let (handle, members) := roster.members.insert (.fresh stream addr timer)
  Logged.write .debug
    s!"Attached peer {addr} as slot {handle.index} ({members.size} attached)"
  return (handle, { roster with members := members })

/-- Members whose inactivity timer has run out, oldest first. -/
def overdue (roster : Roster) (now : Instant) : List Handle :=
  (roster.members.toList.filter fun entry => entry.2.timer.ranOut now).map (·.1)

/-! ### Queues -/

/-- Queues a message for a member. -/
def post (roster : Roster) (handle : Handle) (msg : Message) : Roster :=
  let ⟨members, addresses, messages⟩ := roster
  if members.contains handle then
    let (slot, messages) := messages.insert msg
    let queue := fun member : Member => { member with queue := member.queue ++ [slot] }
    ⟨members.modify handle queue, addresses, messages⟩
  else
    ⟨members, addresses, messages⟩

/-- Takes the oldest message out of a member's queue. -/
def takeNext (roster : Roster) (handle : Handle) : Option Message × Roster :=
  let ⟨members, addresses, messages⟩ := roster
  match members.get? handle with
  | some { queue := slot :: rest, .. } =>
    let (msg, messages) := messages.remove slot
    let dequeue := fun member : Member => { member with queue := rest }
    (msg, ⟨members.modify handle dequeue, addresses, messages⟩)
  | _ => (none, ⟨members, addresses, messages⟩)

/-- The messages queued for a member, oldest first. -/
def messagesFor (roster : Roster) (member : Member) : List Message :=
  member.queue.filterMap roster.messages.get?

/-! ### Announcing -/

/-- Is a member the one under whose handle its address is registered? -/
def ownsAddress (roster : Roster) (handle : Handle) (member : Member) : Bool :=
  match member.addr.ipv4View with
  | some key => roster.addresses.get? key == some handle
  | none => false

/-- The registered members other than one, with their entries, oldest first. -/
def others (roster : Roster) (self : Handle) : List (Handle × PeerEntry) :=
  roster.members.toList.filterMap fun (handle, member) =>
    if handle ≠ self && roster.ownsAddress handle member then
      member.entry.map fun entry => (handle, entry)
    else
      none

/-- Entries split into lists that each fit a frame; no entries make one empty
list. -/
def pages (entries : List PeerEntry) : List (List PeerEntry) :=
  if entries.length ≤ maxListLength then [entries]
  else entries.take maxListLength :: pages (entries.drop maxListLength)
termination_by entries.length
decreasing_by
  simp only [List.length_drop, maxListLength_eq] at *
  omega

/-- Notes a changed announcement. -/
def noteReannounced (addr : SocketAddr) (previous : Option PeerEntry) (entry : PeerEntry) :
    Logged Unit :=
  match previous with
  | some old =>
    if old = entry then pure ()
    else Logged.write .info s!"Peer {addr} re-announced: {old} -> {entry}"
  | none => pure ()

/-- Takes an announcement from a member: the member is told of all others that
are registered, and each of them of the member. Answers how many others there
were, or nothing when the announcement was ignored. -/
def introduce (roster : Roster) (self : Handle) (entry : PeerEntry) :
    Logged (Option Nat × Roster) := do
  match roster.get? self with
  | none => return (none, roster)
  | some member =>
    match member.addr.ipv4View with
    | none =>
      Logged.write .warn s!"Ignoring announce over non-IPv4 connection {member.addr}"
      return (none, roster)
    | some control =>
      noteReannounced member.addr member.entry entry
      let (fresh, addresses) := roster.addresses.insert control self
      if fresh then Logged.write .info s!"Peer {control} announced {entry}"
      let roster := { roster with addresses := addresses }
      let roster := roster.modify self fun member => { member with entry := some entry }
      let others := roster.others self
      let count := others.length
      let lists := pages (others.map (·.2))
      let roster := lists.foldl (fun roster list => roster.post self (.peersToConnect list)) roster
      let tell := fun (roster : Roster) (other : Handle × PeerEntry) =>
        roster.post other.1 (.peersToConnect [entry])
      let roster := others.foldl tell roster
      Logged.write .debug
        s!"Peer list of {count} entries queued for {control}, {count} peers notified"
      return (some count, roster)

/-! ### Removing -/

/-- Detaches a member, releasing its queued messages and, if it is the one
registered, its address. The member comes back with an empty queue. -/
def detach (roster : Roster) (handle : Handle) : Option Member × Roster :=
  match roster.members.remove handle with
  | (none, _) => (none, roster)
  | (some member, members) =>
    let release := fun (messages : Slab Message) slot => (messages.remove slot).2
    let messages := member.queue.foldl release roster.messages
    let addresses :=
      match member.addr.ipv4View with
      | some key =>
        if roster.addresses.get? key = some handle then (roster.addresses.remove key).2
        else roster.addresses
      | none => roster.addresses
    (some { member with queue := [] }, ⟨members, addresses, messages⟩)

end Roster

end Rendezvous
