/-!
# Rendezvous.Logging

**Log records.** `Logged α` is a value together with the records written while
it was computed, in order. Everything that only computes answers in it; the loops
collect the records in their own state.
-/

namespace Rendezvous

/-- How much a record matters. -/
inductive Level where
  | error
  | warn
  | info
  | debug
  | trace
deriving DecidableEq, Repr

/-- One log record. -/
structure LogEntry where
  level : Level
  text : String
deriving DecidableEq, Repr

/-- The records of a computation. -/
abbrev Log := List LogEntry

/-- A value and the records written while it was computed. -/
structure Logged (α : Type) where
  val : α
  log : Log
deriving Repr

namespace Logged

variable {α β : Type}

instance : Monad Logged where
  pure a := ⟨a, []⟩
  bind x f := ⟨(f x.val).val, x.log ++ (f x.val).log⟩

@[simp] theorem val_pure (a : α) : (pure a : Logged α).val = a := rfl

@[simp] theorem log_pure (a : α) : (pure a : Logged α).log = [] := rfl

@[simp] theorem val_bind (x : Logged α) (f : α → Logged β) :
    (x >>= f).val = (f x.val).val := rfl

@[simp] theorem log_bind (x : Logged α) (f : α → Logged β) :
    (x >>= f).log = x.log ++ (f x.val).log := rfl

@[simp] theorem val_map (f : α → β) (x : Logged α) : (f <$> x).val = f x.val := rfl

/-- Writes one record. -/
def write (level : Level) (text : String) : Logged Unit := ⟨(), [⟨level, text⟩]⟩

@[simp] theorem val_write (level : Level) (text : String) : (write level text).val = () := rfl

end Logged

end Rendezvous
