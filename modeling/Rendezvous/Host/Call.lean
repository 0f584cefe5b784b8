import Rendezvous.Net.Address
import Rendezvous.Polling.Latch
import Rendezvous.Timing.Timer
import Rendezvous.Wire.Bytes

/-!
# Rendezvous.Host.Call

**What is asked of the system.** Each call to the system, with what it was given
and what it answered, is one `Call`. The calls of a run, in order, are its trace;
the bytes that a stream has accepted, the datagrams that were sent and the
registrations with the poller are all views of the trace.
-/

namespace Rendezvous

/-- A control stream, by its place in the order of creation. -/
structure StreamId where
  index : Nat
deriving DecidableEq, Repr, Inhabited

/-- Something the poller can watch. -/
inductive Source where
  | listener
  | packetSocket
  | stream (id : StreamId)
deriving DecidableEq, Repr

/-- One call and its result. Calls that answer nothing have the kind of failure,
if any, as their result. -/
inductive Call where
  | bindTcp (addr : SocketAddr)
  | bindUdp (addr : SocketAddr)
  | dial (addr : SocketAddr)
  | register (source : Source) (token : Nat) (interest : Interest) (failure : Option IoKind)
  | reregister (source : Source) (token : Nat) (interest : Interest) (failure : Option IoKind)
  | deregister (source : Source) (failure : Option IoKind)
  | poll (timeout : Duration)
  | accept (result : Except IoKind StreamId)
  /-- A read into `room` bytes, with the bytes read. -/
  | read (id : StreamId) (room : Nat) (result : Except IoKind Bytes)
  /-- A write of the offered bytes, with the number accepted. -/
  | write (id : StreamId) (offered : Bytes) (result : Except IoKind Nat)
  /-- A receive into `room` bytes, with the sender and the bytes kept. -/
  | recv (room : Nat) (result : Except IoKind (SocketAddr × Bytes))
  /-- A datagram sent, with the number of bytes reported. -/
  | send (target : SocketAddr) (bytes : Bytes) (result : Except IoKind Nat)
  | close (id : StreamId)
deriving Repr

end Rendezvous
