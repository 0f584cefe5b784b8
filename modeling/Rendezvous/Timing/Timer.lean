/-!
# Rendezvous.Timing.Timer

**Inactivity timers.** Time is counted in nanoseconds; an `Instant` is a reading
of the system's clock since its origin. A `Timer` runs from the last activity;
it runs out once its limit has passed, and without a limit it never does. A
reading earlier than the last activity counts as no time elapsed.
-/

namespace Rendezvous

/-- A length of time. -/
structure Duration where
  nanos : Nat
deriving DecidableEq, Repr, Inhabited

/-- A reading of the clock: the time since its origin. -/
structure Instant where
  nanos : Nat
deriving DecidableEq, Repr, Inhabited

namespace Duration

/-- No time at all. -/
def zero : Duration := ⟨0⟩

/-- The given number of milliseconds. -/
def ofMillis (n : Nat) : Duration := ⟨n * 1000000⟩

/-- The given number of seconds. -/
def ofSecs (n : Nat) : Duration := ⟨n * 1000000000⟩

/-- Whole seconds in a duration. -/
def wholeSecs (d : Duration) : Nat := d.nanos / 1000000000

/-- Nanoseconds beyond the whole seconds. -/
def subsecNanos (d : Duration) : Nat := d.nanos % 1000000000

/-- The shorter of two durations. -/
def shorter (a b : Duration) : Duration := ⟨min a.nanos b.nanos⟩

end Duration

namespace Instant

/-- The clock's origin. -/
def origin : Instant := ⟨0⟩

/-- The time from an earlier reading to this one; none if that one is later. -/
def since (now earlier : Instant) : Duration := ⟨now.nanos - earlier.nanos⟩

/-- The reading after some time has passed. -/
def after (now : Instant) (elapsed : Duration) : Instant := ⟨now.nanos + elapsed.nanos⟩

end Instant

/-! ### Timers -/

/-- The inactivity timer of one party. -/
structure Timer where
  /-- The last activity. -/
  started : Instant
  /-- How long the party may be silent; `none` for ever. -/
  limit : Option Duration
deriving DecidableEq, Repr

namespace Timer

/-- Restarts the timer. -/
def restart (timer : Timer) (now : Instant) : Timer :=
  { timer with started := now }

/-- The time left, if there is a limit. -/
def left (timer : Timer) (now : Instant) : Option Duration :=
  timer.limit.map fun limit =>
    ⟨limit.nanos - (now.since timer.started).nanos⟩

/-- Has the limit passed? -/
def ranOut (timer : Timer) (now : Instant) : Bool :=
  timer.left now == some .zero

/-- A timer runs out when the silence has lasted as long as its limit. -/
theorem ranOut_iff (timer : Timer) (now : Instant) :
    timer.ranOut now = true ↔
      ∃ limit, timer.limit = some limit ∧
        limit.nanos ≤ now.nanos - timer.started.nanos := by
  cases h : timer.limit with
  | none => simp [ranOut, left, h]
  | some limit =>
    simp only [ranOut, left, h, Option.map_some, beq_iff_eq, Option.some.injEq,
      exists_eq_left', Duration.zero, Duration.mk.injEq, Instant.since]
    omega

end Timer

/-- How long to wait: a default, cut short by the nearest of the armed timers. -/
def shortestWait (default : Duration) (lefts : List (Option Duration)) : Duration :=
  (lefts.filterMap id).foldl Duration.shorter default

@[simp] theorem shortestWait_nil (default : Duration) : shortestWait default [] = default := rfl

/-- The wait is never longer than the default. -/
theorem shortestWait_le_default (default : Duration) (lefts : List (Option Duration)) :
    (shortestWait default lefts).nanos ≤ default.nanos := by
  unfold shortestWait
  generalize lefts.filterMap id = ds
  induction ds generalizing default with
  | nil => exact Nat.le_refl _
  | cons d ds ih => exact Nat.le_trans (ih _) (Nat.min_le_left _ _)

end Rendezvous
