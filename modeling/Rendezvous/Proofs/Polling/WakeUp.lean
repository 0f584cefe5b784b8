import Rendezvous.Proofs.Host.Trace

/-!
# Rendezvous.Proofs.Polling.WakeUp

**When an edge-triggered poller still owes a report.** Such a poller reports a
source writable only when watching it for writing is added, or when it becomes
writable after an operation on it would have blocked. A loop that has something to
write and no latch must therefore have one of the two behind it (`Awaits`).

* `registration` is what the poller watches a source for, by the trace of calls.
* `Mark` is what can happen to the latch of a source, and `Sight.marks` finds what
  did happen between two states of a loop.
* A stage of a loop leaves the write side of a source alone (`Sight.Kept`), has it
  watched for what it needs (`Sight.Rewatched`) or writes to it (`Sight.Written`).
* `Sound` is the invariant. Only writing endangers it, and `Sound.written` is why it
  does not: between watching and serving, a source that is watched for writing has
  something to write, so readiness is forgotten only where the source is full.
-/

namespace Rendezvous

/-! ### What the trace tells -/

/-- An operation that a full or an empty source may decline. -/
inductive Operation where
  | accept
  | read (id : StreamId)
  | write (id : StreamId)
  | receive
  | send
deriving DecidableEq, Repr

/-- The operation that a call tried and that would have blocked. -/
def Call.declined : Call → Option Operation
  | .accept (.error .wouldBlock) => some .accept
  | .read id _ (.error .wouldBlock) => some (.read id)
  | .write id _ (.error .wouldBlock) => some (.write id)
  | .recv _ (.error .wouldBlock) => some .receive
  | .send _ _ (.error .wouldBlock) => some .send
  | _ => none

/-- Is the last call that a longer trace has beyond a shorter one an operation that
would have blocked? -/
def endsDeclined (operation : Operation) (before after : List Call) : Bool :=
  ((after.drop before.length).getLast?.bind Call.declined) == some operation

theorem endsDeclined_of_endsIn {a b : Host} {call : Call} {operation : Operation}
    (h : EndsIn call a b) (hcall : call.declined = some operation) :
    endsDeclined operation a.calls b.calls = true := by
  obtain ⟨new, hnew⟩ := h
  simp [endsDeclined, hnew, hcall]

/-- What a call makes of the registration of a source: the token and the interest
under which the poller watches it. Calls that failed change nothing. -/
def Call.register? (source : Source) (held : Option (Nat × Interest)) :
    Call → Option (Nat × Interest)
  | .register about token interest none => if about = source then some (token, interest) else held
  | .reregister about token interest none => if about = source then some (token, interest) else held
  | .deregister about none => if about = source then none else held
  | .close id => if Source.stream id = source then none else held
  | _ => held

/-- The registration of a source after a trace. -/
def registration (source : Source) (calls : List Call) : Option (Nat × Interest) :=
  calls.foldl (Call.register? source) none

theorem registration_append (source : Source) (calls new : List Call) :
    registration source (calls ++ new) =
      new.foldl (Call.register? source) (registration source calls) :=
  List.foldl_append

@[simp] theorem registration_snoc (source : Source) (calls : List Call) (call : Call) :
    registration source (calls ++ [call]) = call.register? source (registration source calls) :=
  registration_append source calls [call]

theorem Call.register?_of_isTraffic {call : Call} (h : call.isTraffic = true) (source : Source)
    (held : Option (Nat × Interest)) : call.register? source held = held := by
  cases call <;> simp_all [isTraffic, register?]

/-- Traffic leaves every registration as it is. -/
theorem Exchange.registration {a b : Host} (h : Exchange a b) (source : Source) :
    registration source b.calls = registration source a.calls := by
  obtain ⟨new, hcalls, hnew⟩ := h
  rw [hcalls, registration_append]
  generalize Rendezvous.registration source a.calls = held
  clear hcalls
  induction new with
  | nil => rfl
  | cons call new ih =>
      rw [List.foldl_cons, Call.register?_of_isTraffic (hnew call List.mem_cons_self)]
      exact ih fun other hother => hnew other (List.mem_cons_of_mem _ hother)

/-- A source is registered as asked unless the poller refused, and no other changes. -/
theorem registration_register {host next : Host} {source : Source} {token : Nat}
    {interest : Interest} {refused : Option IoKind}
    (h : host.register source token interest = (refused, next)) (about : Source) :
    registration about next.calls =
      if refused = none ∧ source = about then some (token, interest)
      else registration about host.calls := by
  have hcalls := host.calls_register source token interest
  rw [h] at hcalls
  rw [show next.calls = _ from hcalls, registration_snoc]
  cases refused <;> simp [Call.register?]

theorem registration_reregister {host next : Host} {source : Source} {token : Nat}
    {interest : Interest} {refused : Option IoKind}
    (h : host.reregister source token interest = (refused, next)) (about : Source) :
    registration about next.calls =
      if refused = none ∧ source = about then some (token, interest)
      else registration about host.calls := by
  have hcalls := host.calls_reregister source token interest
  rw [h] at hcalls
  rw [show next.calls = _ from hcalls, registration_snoc]
  cases refused <;> simp [Call.register?]

/-! ### Histories -/

/-- Something that happened to a direction of a source. A history lists these, the
latest first. -/
inductive Mark where
  /-- The latch was cleared: because an operation would block, or otherwise. -/
  | cleared (blocked : Bool)
  /-- The poller began to watch the source for this direction. -/
  | added
deriving DecidableEq, Repr

/-- How the latch was cleared last, if ever. -/
def lastCleared : List Mark → Option Bool
  | [] => none
  | .added :: past => lastCleared past
  | .cleared blocked :: _ => some blocked

/-- Did the poller begin to watch after the latch was cleared last? -/
def addedSince : List Mark → Bool
  | [] => false
  | .added :: _ => true
  | .cleared _ :: _ => false

/-- The poller owes a report: the latch was cleared last because an operation would
block, or the source has been watched anew since. -/
def Awaits (marks : List Mark) : Prop :=
  lastCleared marks = some true ∨ addedSince marks = true

instance (marks : List Mark) : Decidable (Awaits marks) :=
  inferInstanceAs (Decidable (_ ∨ _))

@[simp] theorem awaits_added (past : List Mark) : Awaits (.added :: past) := .inr rfl

@[simp] theorem awaits_cleared_true (past : List Mark) : Awaits (.cleared true :: past) := .inl rfl

/-- The latch with its history after a stage: a latch that is no longer set was
cleared, and whether for a reason is told by the last call of the stage. -/
def clearMarks (operation : Operation) (was is : Bool) (before after : List Call)
    (past : List Mark) : List Mark :=
  if was && !is then .cleared (endsDeclined operation before after) :: past else past

theorem clearMarks_kept {operation : Operation} {was is : Bool} {before after : List Call}
    {past : List Mark} (h : was = true → is = true) :
    clearMarks operation was is before after past = past := by
  cases was <;> simp_all [clearMarks]

theorem clearMarks_cleared {operation : Operation} {was is : Bool} {before after : List Call}
    {past : List Mark} (hwas : was = true) (his : is = false) :
    clearMarks operation was is before after past =
      .cleared (endsDeclined operation before after) :: past := by
  simp [clearMarks, hwas, his]

/-! ### The write side of a source -/

/-- A queue that has grown is not empty if it was not. -/
theorem isEmpty_eq_false_mono {α : Type} {xs ys : List α} (h : xs <+: ys)
    (hxs : xs.isEmpty = false) : ys.isEmpty = false := by
  obtain ⟨zs, rfl⟩ := h
  cases xs <;> simp_all

/-- The write side of a source, in the loop's books and in the poller's. -/
structure Sight where
  /-- Is the source known to be writable? -/
  latched : Bool
  /-- What the loop has noted that the source is watched for. -/
  watch : Interest
  /-- Is there anything to write? -/
  output : Bool
  /-- What the poller watches the source for. -/
  registered : Option (Nat × Interest)
  calls : List Call

namespace Sight

/-- Does the poller watch the source for writing? -/
def watched (sight : Sight) : Bool := sight.registered.any fun held => held.2.writable

/-- The history of a write side after a stage. -/
def marks (operation : Operation) (before after : Sight) (past : List Mark) : List Mark :=
  let past := clearMarks operation before.latched after.latched before.calls after.calls past
  if !before.watched && after.watched then .added :: past else past

/-- The history of a write side that is seen for the first time: its first
registration counts. -/
def firstMarks (sight : Sight) : List Mark := if sight.watched then [.added] else []

/-- A stage that leaves a write side alone: readiness and output may come, but
neither goes. -/
structure Kept (before after : Sight) : Prop where
  latched : before.latched = true → after.latched = true
  watch : after.watch = before.watch
  registered : after.registered = before.registered
  output : before.output = true → after.output = true

/-- A stage that has a source watched for what it needs, and asks the poller for
a change only. -/
structure Rewatched (token : Nat) (before after : Sight) : Prop where
  latched : after.latched = before.latched
  output : after.output = before.output
  watch : after.watch = .onDemand before.output
  registered : after.registered =
    if after.watch = before.watch then before.registered else some (token, after.watch)

/-- A stage that writes to a source known to be writable. It forgets readiness only
when the write would block, or when there is nothing to write. -/
structure Written (operation : Operation) (before after : Sight) : Prop where
  latched : before.latched = true
  watch : after.watch = before.watch
  registered : after.registered = before.registered
  cleared : after.latched = false → before.output = true →
    endsDeclined operation before.calls after.calls = true

/-- The source is watched for writing only while there is something to write. This
holds from when the source is watched until it is served. -/
def InUse (sight : Sight) : Prop := sight.watch.writable = true → sight.output = true

/-- A stage that leaves alone what a source is watched for. -/
structure Steady (before after : Sight) : Prop where
  watch : after.watch = before.watch
  registered : after.registered = before.registered

theorem Kept.steady {before after : Sight} (h : Kept before after) : Steady before after :=
  ⟨h.watch, h.registered⟩

theorem Written.steady {operation : Operation} {before after : Sight}
    (h : Written operation before after) : Steady before after :=
  ⟨h.watch, h.registered⟩

theorem Kept.refl (sight : Sight) : Kept sight sight := ⟨id, rfl, rfl, id⟩

theorem Kept.trans {a b c : Sight} (hab : Kept a b) (hbc : Kept b c) : Kept a c :=
  ⟨hbc.latched ∘ hab.latched, hbc.watch.trans hab.watch, hbc.registered.trans hab.registered,
    hbc.output ∘ hab.output⟩

theorem Kept.inUse {before after : Sight} (h : Kept before after) (huse : before.InUse) :
    after.InUse := by
  intro hwatch
  rw [h.watch] at hwatch
  exact h.output (huse hwatch)

/-- The source is watched for just what it needs. This holds when the loop polls. -/
def Fitted (sight : Sight) : Prop := sight.watch = .onDemand sight.output

theorem Fitted.inUse {sight : Sight} (h : sight.Fitted) : sight.InUse := by
  intro hwatch
  rwa [h, Interest.writable_onDemand] at hwatch

theorem Rewatched.fitted {token : Nat} {before after : Sight} (h : Rewatched token before after) :
    after.Fitted := by
  rw [Fitted, h.watch, h.output]

theorem Kept.fitted {before after : Sight} (h : Kept before after)
    (houtput : after.output = before.output) (hfitted : before.Fitted) : after.Fitted := by
  rw [Fitted, h.watch, houtput]
  exact hfitted

end Sight

theorem Sight.Steady.watched_eq {before after : Sight} (h : before.Steady after) :
    after.watched = before.watched := by
  simp [Sight.watched, h.registered]

/-! ### Watched once -/

/-- The source has been watched from the start, and never anew. -/
def WatchedOnce (marks : List Mark) : Prop :=
  ∃ clears : List Bool, marks = clears.map Mark.cleared ++ [.added]

/-- The poller owes a report about a source that was watched once unless the latch was
last cleared for another reason than that an operation would block. -/
theorem WatchedOnce.awaits_iff {marks : List Mark} (h : WatchedOnce marks) :
    Awaits marks ↔ lastCleared marks ≠ some false := by
  obtain ⟨clears, rfl⟩ := h
  cases clears with
  | nil => simp [Awaits, lastCleared, addedSince]
  | cons blocked clears => simp [Awaits, lastCleared, addedSince]

theorem WatchedOnce.steady {operation : Operation} {before after : Sight} {past : List Mark}
    (h : WatchedOnce past) (hsteady : before.Steady after) :
    WatchedOnce (before.marks operation after past) := by
  -- With the registration as it was, a stage adds a clearing at most.
  obtain ⟨clears, rfl⟩ := h
  simp only [Sight.marks, hsteady.watched_eq, Bool.not_and_self, Bool.false_eq_true, if_false,
    clearMarks]
  split
  · exact ⟨_ :: clears, rfl⟩
  · exact ⟨clears, rfl⟩

/-! ### The invariant of a write side -/

/-- A write side that is covered: the loop and the poller agree on what is watched,
and a source that is watched for writing is latched or will be reported. -/
structure Sound (token : Nat) (sight : Sight) (marks : List Mark) : Prop where
  registered : sight.registered = some (token, sight.watch)
  covered : sight.watch.writable = true → sight.latched = true ∨ Awaits marks

namespace Sound

variable {operation : Operation} {token : Nat} {before after : Sight} {past : List Mark}

theorem watched_eq (h : Sound token before past) : before.watched = before.watch.writable := by
  simp [Sight.watched, h.registered]

/-- A source that is watched for writing and not latched will be reported. -/
theorem awaits (h : Sound token before past) (hwatch : before.watch.writable = true)
    (hlatch : before.latched = false) : Awaits past :=
  (h.covered hwatch).resolve_left (by simp [hlatch])

/-- A source that is seen first with the latch clear is covered by its registration. -/
theorem first {sight : Sight} (h : sight.registered = some (token, sight.watch)) :
    Sound token sight sight.firstMarks where
  registered := h
  covered := by
    intro hwatch
    have hwatched : sight.watched = true := by simp [Sight.watched, h, hwatch]
    simp [Sight.firstMarks, hwatched]

theorem kept (h : Sound token before past) (hstep : before.Kept after) :
    Sound token after (before.marks operation after past) := by
  have hwatched : after.watched = before.watched := hstep.steady.watched_eq
  have hmarks : before.marks operation after past = past := by
    simp [Sight.marks, clearMarks_kept hstep.latched, hwatched]
  rw [hmarks]
  refine ⟨by rw [hstep.registered, hstep.watch]; exact h.registered, ?_⟩
  intro hwatch
  rw [hstep.watch] at hwatch
  exact (h.covered hwatch).imp_left hstep.latched

/-- A source that is idle when it is watched needs no report, whatever its history. -/
theorem of_idle (hstep : before.Rewatched token after) (hidle : before.output = false)
    (hregistered : before.registered = some (token, before.watch)) (marks : List Mark) :
    Sound token after marks := by
  refine ⟨?_, ?_⟩
  · rw [hstep.registered]
    by_cases hsame : after.watch = before.watch
    · rw [if_pos hsame, hsame]
      exact hregistered
    · rw [if_neg hsame]
  · intro hwatch
    simp [hstep.watch, hidle] at hwatch

theorem rewatched (h : Sound token before past) (hstep : before.Rewatched token after) :
    Sound token after (before.marks operation after past) := by
  have hclear : clearMarks operation before.latched after.latched before.calls after.calls past =
      past := clearMarks_kept fun hlatch => hstep.latched.trans hlatch
  have hregistered : after.registered = some (token, after.watch) := by
    rw [hstep.registered]
    by_cases hsame : after.watch = before.watch
    · rw [if_pos hsame, hsame]
      exact h.registered
    · rw [if_neg hsame]
  refine ⟨hregistered, ?_⟩
  intro hwatch
  have hafter : after.watched = true := by simp [Sight.watched, hregistered, hwatch]
  rw [Sight.marks, hclear, h.watched_eq, hafter]
  -- Either the source was watched for writing before, or that has just been added.
  by_cases hbefore : before.watch.writable = true
  · simpa [hbefore, hstep.latched] using h.covered hbefore
  · simp [hbefore]

/-- Serving a source that is in use leaves it covered: while it is watched for writing
there is something to write, so readiness is forgotten only for a full source. -/
theorem written (h : Sound token before past) (hstep : before.Written operation after)
    (huse : before.InUse) : Sound token after (before.marks operation after past) := by
  refine ⟨by rw [hstep.registered, hstep.watch]; exact h.registered, ?_⟩
  intro hwatch
  rw [hstep.watch] at hwatch
  have hwatched : after.watched = before.watched := hstep.steady.watched_eq
  cases hlatch : after.latched with
  | true => exact .inl rfl
  | false =>
      -- There was something to write, so the latch was cleared because that would block.
      have hblocked := hstep.cleared hlatch (huse hwatch)
      right
      simp [Sight.marks, clearMarks_cleared hstep.latched hlatch, hwatched, hblocked]

end Sound

end Rendezvous
