/-!
# Rendezvous.Polling.Latch

**Latched readiness.** The poller reports each change once. A loop therefore keeps
what it is told in a `Latch` and clears it only when the operation in question
would block, so that it can do one unit of work per source and iteration without
losing what it was told.

What a source is watched for is its `Interest`: always for reading, and for
writing while there is something to write.
-/

namespace Rendezvous

/-- What one event reports about a source. -/
structure EventFlags where
  readable : Bool
  writable : Bool
  readClosed : Bool
  writeClosed : Bool
  error : Bool
deriving DecidableEq, Repr, Inhabited

/-- What a source is known to be ready for. -/
structure Latch where
  readable : Bool
  writable : Bool
deriving DecidableEq, Repr, Inhabited

namespace Latch

/-- Ready for nothing. -/
def clear : Latch := ⟨false, false⟩

/-- Latches an event. Hang-ups and errors show in the next read or write, so
they count as readiness for it. -/
def merge (latch : Latch) (flags : EventFlags) : Latch :=
  ⟨latch.readable || flags.readable || flags.readClosed || flags.error,
    latch.writable || flags.writable || flags.writeClosed⟩

/-- Forgets readiness for reading. -/
def withoutRead (latch : Latch) : Latch := { latch with readable := false }

/-- Forgets readiness for writing. -/
def withoutWrite (latch : Latch) : Latch := { latch with writable := false }

theorem withoutRead_of_not_readable {latch : Latch} (h : ¬ latch.readable) :
    latch.withoutRead = latch := by
  rw [withoutRead, ← Bool.eq_false_iff.2 h]

theorem withoutWrite_of_not_writable {latch : Latch} (h : ¬ latch.writable) :
    latch.withoutWrite = latch := by
  rw [withoutWrite, ← Bool.eq_false_iff.2 h]

/-- Ready for anything? -/
def isSet (latch : Latch) : Bool := latch.readable || latch.writable

end Latch

/-- What a source is watched for. -/
inductive Interest where
  | read
  | readWrite
deriving DecidableEq, Repr, Inhabited

namespace Interest

/-- Reading always, writing on demand. -/
def onDemand (hasOutput : Bool) : Interest :=
  if hasOutput then readWrite else read

/-- Is the source watched for writing? -/
def writable : Interest → Bool
  | read => false
  | readWrite => true

@[simp] theorem writable_onDemand (hasOutput : Bool) :
    (onDemand hasOutput).writable = hasOutput := by
  cases hasOutput <;> rfl

end Interest

end Rendezvous
