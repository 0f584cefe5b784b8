import Rendezvous.Host.Call

/-!
# Rendezvous.Host.Script

**What the system has in store.** A run is a function of what the system answers,
so the answers are data: queues of outcomes, taken first in, first out. Where a
queue is empty, a read, a receive or an accept would block, and a write or a send
takes everything.

`readScript` and its companions say what one call gets from a queue and what the
queue is afterwards.
-/

namespace Rendezvous

/-- What a stream gives to a read. -/
inductive Delivery where
  /-- Bytes; what does not fit a read stays for the next. -/
  | data (bytes : Bytes)
  /-- The end of the stream, seen once. -/
  | eof
  | fail (kind : IoKind)
deriving DecidableEq, Repr

/-- How much a write or a send takes. -/
inductive Acceptance where
  | upTo (count : Nat)
  | fail (kind : IoKind)
deriving DecidableEq, Repr

/-- What the packet socket gives to a receive. -/
inductive Incoming where
  | datagram (sender : SocketAddr) (bytes : Bytes)
  | fail (kind : IoKind)
deriving DecidableEq, Repr

/-- What the listener gives to an accept. -/
inductive Arrival where
  | connection (id : StreamId) (addr : SocketAddr)
  | fail (kind : IoKind)
deriving DecidableEq, Repr

/-- The queues of one stream. -/
structure StreamScript where
  reads : List Delivery
  writes : List Acceptance
deriving Repr, Inhabited

/-- A stream with nothing in store. -/
def StreamScript.idle : StreamScript := ⟨[], []⟩

/-- A stream with more in store. -/
def StreamScript.append (script more : StreamScript) : StreamScript :=
  ⟨script.reads ++ more.reads, script.writes ++ more.writes⟩

/-! ### One call -/

/-- A read of at most `room` bytes. -/
def readScript (room : Nat) : List Delivery → Except IoKind Bytes × List Delivery
  | [] => (.error .wouldBlock, [])
  | .fail kind :: rest => (.error kind, rest)
  | .eof :: rest => (.ok [], rest)
  | .data bytes :: rest =>
    let left := bytes.drop room
    (.ok (bytes.take room), if left.isEmpty then rest else .data left :: rest)

/-- A write or a send of `count` bytes. -/
def writeScript (count : Nat) : List Acceptance → Except IoKind Nat × List Acceptance
  | [] => (.ok count, [])
  | .fail kind :: rest => (.error kind, rest)
  | .upTo limit :: rest => (.ok (min limit count), rest)

/-- A receive of at most `room` bytes; a longer datagram is cut. -/
def recvScript (room : Nat) : List Incoming → Except IoKind (SocketAddr × Bytes) × List Incoming
  | [] => (.error .wouldBlock, [])
  | .fail kind :: rest => (.error kind, rest)
  | .datagram sender bytes :: rest => (.ok (sender, bytes.take room), rest)

/-- An accept. -/
def acceptScript : List Arrival → Except IoKind (StreamId × SocketAddr) × List Arrival
  | [] => (.error .wouldBlock, [])
  | .fail kind :: rest => (.error kind, rest)
  | .connection id addr :: rest => (.ok (id, addr), rest)

/-- A call that answers nothing; an empty queue means success. -/
def unitScript : List (Option IoKind) → Option IoKind × List (Option IoKind)
  | [] => (none, [])
  | failure :: rest => (failure, rest)

/-- No read gives more than there is room for. -/
theorem length_readScript_le {room : Nat} {script rest : List Delivery} {bytes : Bytes}
    (h : readScript room script = (.ok bytes, rest)) : bytes.length ≤ room := by
  unfold readScript at h
  split at h <;> simp only [Prod.mk.injEq, Except.ok.injEq, reduceCtorEq, false_and] at h
  · obtain ⟨rfl, -⟩ := h; simp
  · obtain ⟨rfl, -⟩ := h; exact List.length_take_le ..

end Rendezvous
