import Rendezvous.Host.State

/-!
# Rendezvous.Host.Retry

**Repeating what a signal interrupted.** `retry` performs an operation again
while it is interrupted. Each interruption uses up one outcome that was in store,
so the length of the queue bounds how often that can happen.
-/

namespace Rendezvous

/-- Repeats an operation while it is interrupted, up to `tries` times more. -/
def retry {α : Type} (operation : Host → Except IoKind α × Host) :
    (tries : Nat) → Host → Except IoKind α × Host
  | 0, host => operation host
  | tries + 1, host =>
    match operation host with
    | (.error .interrupted, host) => retry operation tries host
    | answer => answer

/-- What holds of an operation, and is kept by doing one thing after another,
holds of the operation repeated. -/
theorem retry_induction {α : Type} {operation : Host → Except IoKind α × Host}
    {motive : Host → Host → Prop}
    (step : ∀ host, motive host (operation host).2)
    (trans : ∀ a b c, motive a b → motive b c → motive a c) (tries : Nat) (host : Host) :
    motive host (retry operation tries host).2 := by
  induction tries generalizing host with
  | zero => exact step host
  | succ tries ih =>
    unfold retry
    have h := step host
    split
    · next next heq =>
      rw [heq] at h
      exact trans _ _ _ h (ih next)
    · exact h

namespace Host

/-- Reads from a stream until no signal interrupts. -/
def readUninterrupted (host : Host) (id : StreamId) (room : Nat) : Except IoKind Bytes × Host :=
  retry (fun host => host.read id room) (host.script id).reads.length host

/-- Receives a datagram until no signal interrupts. -/
def recvUninterrupted (host : Host) (room : Nat) : Except IoKind (SocketAddr × Bytes) × Host :=
  retry (fun host => host.recv room) host.incoming.length host

/-- Sends a datagram until no signal interrupts. -/
def sendUninterrupted (host : Host) (target : SocketAddr) (bytes : Bytes) :
    Except IoKind Nat × Host :=
  retry (fun host => host.send target bytes) host.sends.length host

end Host

end Rendezvous
