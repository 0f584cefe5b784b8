import Mathlib.Data.List.Nodup
import Rendezvous.Proofs.Host.Trace

/-!
# Rendezvous.Proofs.Polling.Table

**What the poller watches can be read off the trace.** A source is entered when it is
registered, is watched for something else when it is registered again, and is struck off when
it is deregistered (`Call.retable`). A request that fails changes nothing, and neither does the
close of a stream, so that a registration that outlives its connection shows in the table.

An event says no more of its source than the token under which that was registered; what it
was raised for is up to the table (`raisedFor`).
-/

namespace Rendezvous

/-- Something that the poller watches: under which token, and for what. -/
structure Registration where
  source : Source
  token : Nat
  interest : Interest
deriving DecidableEq, Repr

/-- What the poller watches after a call. -/
def Call.retable (table : List Registration) : Call → List Registration
  | .register source token interest none => table ++ [⟨source, token, interest⟩]
  | .reregister source token interest none =>
    table.map fun held => if held.source = source then ⟨source, token, interest⟩ else held
  | .deregister source none => table.filter fun held => held.source ≠ source
  | _ => table

/-- What the poller watches after some calls. -/
def registered (calls : List Call) : List Registration := calls.foldl Call.retable []

/-- Is a call a deregistering that fails? The source may then go on being watched. -/
def Call.clings : Call → Bool
  | .deregister _ (some _) => true
  | _ => false

theorem registered_append (calls more : List Call) :
    registered (calls ++ more) = more.foldl Call.retable (registered calls) :=
  List.foldl_append

/-- Traffic leaves the table as it is. -/
theorem Call.retable_of_isTraffic {call : Call} (h : call.isTraffic = true)
    (table : List Registration) : call.retable table = table := by
  cases call <;> simp_all [isTraffic, retable]

theorem foldl_retable_of_isTraffic {calls : List Call}
    (h : ∀ call ∈ calls, call.isTraffic = true) (table : List Registration) :
    calls.foldl Call.retable table = table :=
  List.foldlRecOn (motive := fun held => held = table) calls _ rfl fun held hheld call hcall => by
    rw [Call.retable_of_isTraffic (h call hcall), hheld]

/-! ### Events -/

/-- Is a token one that a source is registered under? -/
def holdsToken (table : List Registration) (source : Source) (token : Nat) : Bool :=
  table.any fun held => held.token = token && held.source = source

/-- Those of some events that are raised for a source. -/
def raisedFor (table : List Registration) (source : Source) (events : List Event) : List Event :=
  events.filter fun event => holdsToken table source event.token

/-- What a source is known to be ready for once some events have been latched. -/
def Latch.mergeAll (latch : Latch) (events : List Event) : Latch :=
  events.foldl (fun latch event => latch.merge event.flags) latch

section

variable {table : List Registration} {events more : List Event}

theorem holdsToken_iff {source : Source} {token : Nat} :
    holdsToken table source token = true ↔
      ∃ held ∈ table, held.token = token ∧ held.source = source := by
  simp [holdsToken]

theorem raisedFor_append (source : Source) :
    raisedFor table source (events ++ more) =
      raisedFor table source events ++ raisedFor table source more :=
  List.filter_append ..

theorem Latch.mergeAll_append (latch : Latch) :
    latch.mergeAll (events ++ more) = (latch.mergeAll events).mergeAll more :=
  List.foldl_append

/-- Where every source has a token of its own, an event is raised for one source. -/
theorem raisedFor_singleton (h : (table.map (·.token)).Nodup) {held : Registration}
    (hheld : held ∈ table) {event : Event} (htoken : held.token = event.token) (source : Source) :
    raisedFor table source [event] = if source = held.source then [event] else [] := by
  have hholds : holdsToken table source event.token = decide (source = held.source) := by
    rw [Bool.eq_iff_iff, holdsToken_iff, decide_eq_true_iff]
    constructor
    · rintro ⟨other, hother, hsame, rfl⟩
      rw [List.inj_on_of_nodup_map h hother hheld (hsame.trans htoken.symm)]
    · rintro rfl
      exact ⟨held, hheld, htoken, rfl⟩
  simp [raisedFor, List.filter_cons, hholds]

end

end Rendezvous
