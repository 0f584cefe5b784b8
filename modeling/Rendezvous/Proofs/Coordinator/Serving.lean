import Rendezvous.Proofs.Coordinator.Steps

/-!
# Rendezvous.Proofs.Coordinator.Serving

**The state in which an iteration serves its members.** An iteration watches its sources,
polls, latches the events and accepts before it serves anybody, and any of these may end it
early. `serving` is the state after them, with the time of the iteration.

`serving_cases` cuts an iteration in two there: what comes before is calm, but for the
connection that may be accepted, and so is an iteration that serves nobody; what comes after
is `finish`.
-/

namespace Rendezvous
namespace Coordinator

/-- The state in which an iteration polls, unless it stops before. -/
def watched (c : Coordinator) (turn : Turn) : Stage Coordinator :=
  { c with host := c.host.supply turn.supply }.watchSources

/-- The state in which an iteration accepts, unless its poll fails. -/
def latched (c : Coordinator) (turn : Turn) : Option Coordinator :=
  match c.host.poll (c.waitTime c.host.clock) turn with
  | (.error _, _) => none
  | (.ok events, host) => some (events.foldl latch { c with host := host })

/-- The state in which an iteration serves its members, and the time at which it does;
nothing if it ends before. -/
def serving (c : Coordinator) (turn : Turn) : Option (Coordinator × Instant) :=
  if (c.watched turn).failure.isSome then none
  else
    match (c.watched turn).state.latched turn with
    | none => none
    | some ready =>
      let accepted := ready.acceptOne ready.host.clock
      if accepted.failure.isSome then none else some (accepted.state, ready.host.clock)

/-- What an iteration does once its members have been served. -/
def finish (lag : Duration) (level : Nat) (c : Coordinator) : Stage Coordinator :=
  c.servePackets.andThen fun c =>
    let c := c.elapse lag
    let c := c.dismissIdle c.host.clock
    .going { c with scratch := c.scratch.releaseTo level }

theorem calm_elapse {p : Handle → Prop} (c : Coordinator) (lag : Duration) :
    Calm p c (c.elapse lag) :=
  .silent rfl rfl rfl ⟨rfl, rfl⟩ rfl

theorem calm_finish (lag : Duration) (level : Nat) (c : Coordinator) :
    Calm anyone c (finish lag level c).state :=
  Stage.andThen_induction (motive := Calm anyone c) (calm_servePackets c) fun served hserved =>
    ((hserved.trans (calm_elapse served lag)).trans
      (calm_dismissIdle _ _ fun _ _ => trivial)).trans (.silent rfl rfl rfl (.refl _) rfl)

theorem calm_watched (c : Coordinator) (turn : Turn) : Calm anyone c (c.watched turn).state :=
  (calm_supply c turn.supply).trans (calm_watchSources _ fun _ => trivial)

theorem calm_latched {p : Handle → Prop} {c ready : Coordinator} {turn : Turn}
    (h : c.latched turn = some ready) : Calm p c ready := by
  have hpoll := calm_poll (p := p) c (c.waitTime c.host.clock) turn
  unfold latched at h
  split at h
  next => cases h
  next events host heq =>
    cases h
    rw [heq] at hpoll
    exact hpoll.trans (.foldl _ events fun c event _ => calm_latch c event)

/-- An iteration that does not get past its poll does nothing more. -/
theorem calm_pollAndServe {c : Coordinator} {turn : Turn} (h : c.latched turn = none) :
    Calm anyone c (c.pollAndServe turn).state := by
  have hpoll := calm_poll (p := anyone) c (c.waitTime c.host.clock) turn
  unfold latched at h
  unfold pollAndServe
  split at h
  next kind host heq =>
    rw [heq] at hpoll ⊢
    cases kind <;> exact hpoll
  next => cases h

theorem pollAndServe_of_latched {c ready : Coordinator} {turn : Turn}
    (h : c.latched turn = some ready) : c.pollAndServe turn = ready.serve turn.lag := by
  unfold latched at h
  unfold pollAndServe
  split at h
  next => cases h
  next events host heq =>
    cases h
    rw [heq]

/-- An iteration serves nobody, or comes to serve its members and finishes after that. -/
theorem serving_cases (c : Coordinator) (turn : Turn) :
    (c.serving turn = none ∧ Calm anyone c (c.iterate turn).state) ∨
      ∃ w ready s, c.watched turn = .going w ∧ w.latched turn = some ready ∧
        ready.acceptOne ready.host.clock = .going s ∧
          c.serving turn = some (s, ready.host.clock) ∧
            c.iterate turn =
              finish turn.lag ready.scratch.level (s.serveMembers ready.host.clock) := by
  have hwatched := calm_watched c turn
  have hiterate : c.iterate turn = (c.watched turn).andThen fun c => c.pollAndServe turn := rfl
  unfold serving
  rw [hiterate]
  rcases hstage : c.watched turn with ⟨w, _ | failure⟩
  · rw [hstage] at hwatched
    cases hready : w.latched turn with
    | none => exact .inl ⟨by simp, hwatched.trans (calm_pollAndServe hready)⟩
    | some ready =>
        have hserve : (Stage.andThen ⟨w, none⟩ fun c => c.pollAndServe turn) =
            (ready.acceptOne ready.host.clock).andThen fun s =>
              finish turn.lag ready.scratch.level (s.serveMembers ready.host.clock) :=
          pollAndServe_of_latched hready
        rw [hserve]
        have haccept := acceptOne_cases (p := anyone) ready ready.host.clock
          fun _ _ _ => trivial
        rcases haccepted : ready.acceptOne ready.host.clock with ⟨s, _ | failure⟩
        · exact .inr ⟨w, ready, s, rfl, hready, haccepted, by simp [haccepted], rfl⟩
        · rw [haccepted] at haccept
          refine .inl ⟨by simp [haccepted], (hwatched.trans (calm_latched hready)).trans ?_⟩
          exact haccept.resolve_right fun ⟨_, _, _, _, hgoing, _⟩ => nomatch hgoing
  · rw [hstage] at hwatched
    exact .inl ⟨rfl, hwatched⟩

end Coordinator
end Rendezvous
