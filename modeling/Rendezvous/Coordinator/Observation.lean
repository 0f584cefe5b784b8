import Rendezvous.Logging
import Rendezvous.Wire.Message

/-!
# Rendezvous.Coordinator.Observation

**Telling peers their public address.** The answer to a request on the packet
socket is the address from which it came. A keep-alive has done its work by
arriving, and anything else does not belong on this socket.
-/

namespace Rendezvous

/-- What is done about one datagram. -/
inductive PacketAnswer where
  | reply (reply : Message) (target : SocketAddr)
  | keepAlive
  | ignored
deriving DecidableEq, Repr

/-- The response that tells a sender its address. There is none for a sender
without an IPv4 view, since the wire format carries IPv4 only. -/
def observe (sender : SocketAddr) : Logged (Option Message) := do
  match sender.ipv4View with
  | some view => return some (.stunResponse view)
  | none =>
    Logged.write .warn s!"IPv6 STUN not supported, skipping {sender}"
    return none

/-- Decides about one datagram. -/
def answerPacket (msg : Message) (sender : SocketAddr) : Logged PacketAnswer := do
  match msg with
  | .stunRequest =>
    match ← observe sender with
    | some reply => return .reply reply sender
    | none => return .ignored
  | .keepAlive =>
    Logged.write .trace s!"Keep-alive from {sender}"
    return .keepAlive
  | msg =>
    Logged.write .warn s!"Unexpected {msg} on packet socket from {sender}"
    return .ignored

end Rendezvous
