import Rendezvous.Error

/-!
# Rendezvous.Host.Stage

**Stages of an iteration.** An event loop is a sequence of stages over its state.
A stage may fail; the loop then stops with the state it has reached, and no later
stage runs.
-/

namespace Rendezvous

/-- The state after a stage, and the failure that stopped the loop there. -/
structure Stage (σ : Type) where
  state : σ
  failure : Option LoopFailure

namespace Stage

variable {σ : Type}

/-- The loop goes on. -/
def going (state : σ) : Stage σ := ⟨state, none⟩

/-- The loop stops. -/
def stopped (state : σ) (failure : LoopFailure) : Stage σ := ⟨state, some failure⟩

/-- Runs the next stage unless the loop has stopped. -/
def andThen (stage : Stage σ) (next : σ → Stage σ) : Stage σ :=
  match stage.failure with
  | none => next stage.state
  | some _ => stage

@[simp] theorem state_going (state : σ) : (going state).state = state := rfl

@[simp] theorem failure_going (state : σ) : (going state).failure = none := rfl

@[simp] theorem state_stopped (state : σ) (failure : LoopFailure) :
    (stopped state failure).state = state := rfl

@[simp] theorem going_andThen (state : σ) (next : σ → Stage σ) :
    (going state).andThen next = next state := rfl

@[simp] theorem stopped_andThen (state : σ) (failure : LoopFailure) (next : σ → Stage σ) :
    (stopped state failure).andThen next = stopped state failure := rfl

/-- What every stage keeps, a sequence of them keeps. -/
theorem andThen_induction {motive : σ → Prop} {stage : Stage σ} {next : σ → Stage σ}
    (h : motive stage.state) (step : ∀ s, motive s → motive (next s).state) :
    motive (stage.andThen next).state := by
  unfold andThen
  split
  · exact step _ h
  · exact h

/-- What the first stage brings about, and the next makes something weaker of. -/
theorem andThen_of {P Q : σ → Prop} {stage : Stage σ} {next : σ → Stage σ}
    (h : P stage.state) (weaken : ∀ s, P s → Q s) (step : ∀ s, P s → Q (next s).state) :
    Q (stage.andThen next).state := by
  unfold andThen
  split
  · exact step _ h
  · exact weaken _ h

/-- A sequence goes on when each of its parts does. -/
theorem going_of_andThen {stage : Stage σ} {next : σ → Stage σ}
    (h : (stage.andThen next).failure = none) :
    stage.failure = none ∧ (next stage.state).failure = none ∧
      (stage.andThen next).state = (next stage.state).state := by
  unfold andThen at h ⊢
  cases hfailure : stage.failure with
  | none => exact ⟨rfl, by simpa [hfailure] using h, rfl⟩
  | some failure => simp [hfailure] at h

/-! ### Views -/

variable {τ : Type}

/-- A stage seen through a view of its state. -/
def map (f : σ → τ) (stage : Stage σ) : Stage τ := ⟨f stage.state, stage.failure⟩

@[simp] theorem map_going (f : σ → τ) (state : σ) : (going state).map f = going (f state) := rfl

@[simp] theorem map_stopped (f : σ → τ) (state : σ) (failure : LoopFailure) :
    (stopped state failure).map f = stopped (f state) failure := rfl

/-- Stages that agree through a view agree when they run one after another. -/
theorem map_andThen {f : σ → τ} {stage : Stage σ} {step : σ → Stage σ} {seen : Stage τ}
    {seenStep : τ → Stage τ} (h : stage.map f = seen)
    (hstep : ∀ s, (step s).map f = seenStep (f s)) :
    (stage.andThen step).map f = seen.andThen seenStep := by
  subst h
  unfold andThen
  cases hfailure : stage.failure with
  | none => simpa [map, hfailure] using hstep stage.state
  | some failure => simp [map, hfailure]

end Stage

end Rendezvous
