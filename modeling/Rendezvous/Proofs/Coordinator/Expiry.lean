import Rendezvous.Proofs.Coordinator.Activity

/-!
# Rendezvous.Proofs.Coordinator.Expiry

**Idle members are dismissed when their time is up, neither earlier nor later.** A member is
overdue when the limit has passed since it last showed a sign of life, which is read off the calls
of the run alone (`LastActive`, `Overdue`). `idle_expiry_exact` says that whoever is dismissed for
silence is whoever is overdue when it comes to that, and that the loop does not sleep longer than
until the next member is.

* `Timely` is the invariant that ties timers to the calls of a run: each has been started at its
  member's last sign of life. `Timely.tended` is an iteration, and `Timed.timely` is a run.
* `expired_dismissIdle` and `waits` are what follows from it for one dismissal of overdue members,
  and for the wait that is chosen.
-/

namespace Rendezvous

/-! ### The nearest timer -/

theorem foldl_shorter (default : Duration) (waits : List Duration) :
    waits.foldl Duration.shorter default ∈ default :: waits ∧
      ∀ wait ∈ default :: waits, (waits.foldl Duration.shorter default).nanos ≤ wait.nanos := by
  induction waits generalizing default with
  | nil => simp
  | cons wait waits ih =>
      obtain ⟨hmem, hleast⟩ := ih (default.shorter wait)
      obtain ⟨hshorter, hrest⟩ := List.forall_mem_cons.1 hleast
      have hfirst : default.shorter wait = default ∨ default.shorter wait = wait := by
        rcases Nat.le_total default.nanos wait.nanos with h | h
        · exact .inl (congrArg Duration.mk (Nat.min_eq_left h))
        · exact .inr (congrArg Duration.mk (Nat.min_eq_right h))
      rw [List.foldl_cons]
      refine ⟨?_, List.forall_mem_cons.2 ⟨?_, List.forall_mem_cons.2 ⟨?_, hrest⟩⟩⟩
      · rcases List.mem_cons.1 hmem with hwait | hlater
        · rw [hwait]
          rcases hfirst with h | h <;> simp [h]
        · exact List.mem_cons_of_mem _ (List.mem_cons_of_mem _ hlater)
      · exact hshorter.trans (Nat.min_le_left _ _)
      · exact hshorter.trans (Nat.min_le_right _ _)

/-- The wait is the shortest of its default and what is left of the armed timers. -/
theorem shortestWait_spec (default : Duration) (lefts : List (Option Duration)) :
    (shortestWait default lefts = default ∨ some (shortestWait default lefts) ∈ lefts) ∧
      ∀ left, some left ∈ lefts → (shortestWait default lefts).nanos ≤ left.nanos := by
  have hmem (left : Duration) : left ∈ lefts.filterMap id ↔ some left ∈ lefts := by simp
  obtain ⟨hwait, hleast⟩ := foldl_shorter default (lefts.filterMap id)
  exact ⟨(List.mem_cons.1 hwait).imp_right (hmem _).1,
    fun left hleft => hleast left (List.mem_cons_of_mem _ ((hmem left).2 hleft))⟩

namespace Coordinator

variable {c c' w x : Coordinator} {config : CoordinatorConfig} {host : Host}
  {timeline : List (Instant × Call)} {new : List Call} {id : StreamId} {handle : Handle}
  {member : Member} {active other now : Instant} {limit : Option Duration} {turn : Turn}

/-! ### Signs of life -/

/-- The time of a connection's last sign of life: of its accept, or of the last read that got bytes
from it. -/
structure LastActive (timeline : List (Instant × Call)) (id : StreamId) (active : Instant) :
    Prop where
  shown : ∃ call, (active, call) ∈ timeline ∧ call.enlivens id = true
  last : ∀ entry ∈ timeline, entry.2.enlivens id = true → entry.1.nanos ≤ active.nanos

namespace LastActive

theorem unique (h : LastActive timeline id active) (hother : LastActive timeline id other) :
    active = other := by
  obtain ⟨call, hmem, hlives⟩ := h.shown
  obtain ⟨call', hmem', hlives'⟩ := hother.shown
  have hle := hother.last _ hmem hlives
  have hge := h.last _ hmem' hlives'
  cases active
  cases other
  exact congrArg Instant.mk (Nat.le_antisymm hle hge)

/-- Calls that are no sign of life leave it where it is. -/
theorem silent (h : LastActive timeline id active)
    (hnew : ∀ call ∈ new, call.enlivens id = false) :
    LastActive (timeline ++ stamped now new) id active := by
  obtain ⟨call, hmem, hlives⟩ := h.shown
  refine ⟨⟨call, List.mem_append_left _ hmem, hlives⟩, fun entry hentry hlives => ?_⟩
  rcases List.mem_append.1 hentry with hold | hstamped
  · exact h.last entry hold hlives
  · obtain ⟨call, hcall, rfl⟩ := List.mem_map.1 hstamped
    exact absurd hlives (Bool.eq_false_iff.1 (hnew call hcall))

/-- A later sign of life takes its place. -/
theorem renewed (hpast : ∀ entry ∈ timeline, entry.1.nanos ≤ now.nanos)
    (hnew : ∃ call ∈ new, call.enlivens id = true) :
    LastActive (timeline ++ stamped now new) id now := by
  obtain ⟨call, hcall, hlives⟩ := hnew
  refine ⟨⟨call, List.mem_append_right _ (List.mem_map_of_mem hcall), hlives⟩,
    fun entry hentry _ => ?_⟩
  rcases List.mem_append.1 hentry with hold | hstamped
  · exact hpast entry hold
  · obtain ⟨_, -, rfl⟩ := List.mem_map.1 hstamped
    exact Nat.le_refl _

end LastActive

/-- A member is overdue when the limit has passed since its last sign of life. -/
def Overdue (limit : Option Duration) (active now : Instant) : Prop :=
  ∃ allowed, limit = some allowed ∧ allowed.nanos ≤ (now.since active).nanos

/-- A timer that was started then has run out. -/
theorem ranOut_iff_overdue {timer : Timer} :
    timer.ranOut now = true ↔ Overdue timer.limit timer.started now :=
  timer.ranOut_iff now

instance (limit : Option Duration) (active now : Instant) : Decidable (Overdue limit active now) :=
  decidable_of_iff ((Timer.mk active limit).ranOut now = true) ranOut_iff_overdue

/-! ### Timers and signs of life -/

/-- All timers are up to date with what has happened. -/
structure Timely (config : CoordinatorConfig) (timeline : List (Instant × Call))
    (c : Coordinator) : Prop where
  consistent : Consistent c
  distinct : Distinct c
  settings : c.config = config
  /-- Whatever has happened has not happened later than now. -/
  past : ∀ entry ∈ timeline, entry.1.nanos ≤ c.host.clock.nanos
  /-- A member's timer was started at its last sign of life. -/
  members : ∀ {handle member}, c.roster.get? handle = some member →
    LastActive timeline member.stream.id member.timer.started
  armed : Armed config.idleTimeout c

theorem timersKept_dismissIdle (h : Consistent c) (now : Instant) :
    TimersKept c (c.dismissIdle now) := by
  rw [dismissIdle_eq]
  exact (Unstirred.dismissEach h _).timersKept

/-- What an iteration does from then on when it comes to dismiss overdue members. -/
theorem iterate_dismisses (hx : c.expiring turn = some x) (hlate : Consistent x) :
    ∃ y, c.iterate turn = .going y ∧ Work x [] y ∧ Tended limit now x y ∧
      y.host.clock = x.host.clock := by
  obtain ⟨level, hstate⟩ := iterate_of_expiring hx
  refine ⟨_, hstate, (work_dismissIdle x _).piece (.release _ level), ?_, clock_dismissIdle x _⟩
  exact .of_calm (p := anyone) hlate
    ((calm_dismissIdle x _ fun _ _ => trivial).trans (.silent rfl rfl rfl (.refl _) rfl))
    ((timersKept_dismissIdle hlate x.host.clock).trans (.of_roster_eq rfl))

/-- The time of an iteration that gets no further than its poll is that at which the poll is
over. -/
theorem clock_pollAndServe (h : w.latched turn = none) :
    (w.pollAndServe turn).state.host.clock = w.host.clock.after turn.advance := by
  have hpoll := clock_poll w.host (w.waitTime w.host.clock) turn
  unfold latched at h
  unfold pollAndServe
  split at h
  next kind polled heq =>
    rw [heq] at hpoll ⊢
    cases kind <;> exact hpoll
  next => cases h

namespace Timely

theorem start (horderly : host.Orderly) (h : Coordinator.start config host = .ok c) :
    Timely config [] c where
  consistent := consistent_start h
  distinct := .start horderly h
  settings := congrArg Tally.config (tally_start h)
  past := nofun
  members := fun hget => nomatch (get?_start h _).symm.trans hget
  armed := fun _ _ hget => nomatch (get?_start h _).symm.trans hget

/-- If timers are restarted at signs of life, they stay up to date. -/
theorem tended (h : Timely config timeline c) (htended : Tended config.idleTimeout now c c')
    (hconsistent : Consistent c') (hdistinct : Distinct c') (hconfig : c'.config = c.config)
    (hpast : ∀ entry ∈ timeline, entry.1.nanos ≤ now.nanos)
    (hnow : now.nanos ≤ c'.host.clock.nanos) :
    Timely config (timeline ++ stamped now (c.host.callsSince c'.host)) c' where
  consistent := hconsistent
  distinct := hdistinct
  settings := hconfig.trans h.settings
  past := by
    intro entry hentry
    rcases List.mem_append.1 hentry with hold | hstamped
    · exact (hpast entry hold).trans hnow
    · obtain ⟨_, -, rfl⟩ := List.mem_map.1 hstamped
      exact hnow
  members := by
    obtain ⟨new, hnew, hmembers⟩ := htended
    rw [Host.callsSince_eq hnew]
    intro handle member' hget
    rcases hmembers handle member' hget with
      ⟨hlives, htimer⟩ | ⟨hsilent, member, hmember, hid, htimer⟩
    · rw [htimer]
      exact .renewed hpast hlives
    · rw [hid] at hsilent ⊢
      rw [htimer]
      exact (h.members hmember).silent hsilent
  armed := htended.armed h.armed

/-- Where nothing comes in and timers run on, there is nothing to keep up with. -/
theorem calm {p : Handle → Prop} (h : Timely config timeline c) (hcalm : Calm p c c')
    (htimers : TimersKept c c') (hdistinct : Distinct c') (hconfig : c'.config = c.config)
    (hclock : c.host.clock.nanos ≤ c'.host.clock.nanos) : Timely config timeline c' where
  consistent := h.consistent.calm hcalm
  distinct := hdistinct
  settings := hconfig.trans h.settings
  past := fun entry hentry => (h.past entry hentry).trans hclock
  members := by
    intro handle member' hget
    obtain ⟨member, hmember, hid, htimer⟩ :=
      htimers.exists_before (h.consistent.lineOf_calm hcalm) hget
    rw [hid, htimer]
    exact h.members hmember
  armed := by
    intro handle member' hget
    obtain ⟨member, hmember, htimer⟩ := htimers handle member' hget
    rw [htimer]
    exact h.armed handle member hmember

theorem watched (h : Timely config timeline c) (turn : Turn) :
    Timely config timeline (c.watched turn).state := by
  have hsame := Unstirred.watched h.consistent turn
  exact h.calm (calm_watched c turn) hsame.timersKept
    ((work_watched c turn).distinct h.consistent h.distinct) hsame.config (by rw [hsame.clock])

theorem past_after (h : Timely config timeline c) (advance : Duration) :
    ∀ entry ∈ timeline, entry.1.nanos ≤ (c.host.clock.after advance).nanos :=
  fun entry hentry => (h.past entry hentry).trans (Nat.le_add_right ..)

/-- The second reading of the clock is not before the first one. -/
theorem after_le_expiring (h : Timely config timeline c) (hx : c.expiring turn = some x) :
    (c.host.clock.after turn.advance).nanos ≤ x.host.clock.nanos := by
  rw [clock_expiring h.consistent hx]
  exact Nat.le_add_right ..

/-- Timers are up to date when overdue members are dismissed. -/
theorem expiring (h : Timely config timeline c) (hx : c.expiring turn = some x) :
    Timely config (timeline ++ stamped (c.host.clock.after turn.advance)
      (c.host.callsSince x.host)) x := by
  obtain ⟨done, hwork⟩ := work_expiring hx
  have htended := tended_expiring h.consistent h.distinct (h.settings.symm ▸ h.armed) hx
  rw [h.settings] at htended
  exact h.tended htended (hwork.consistent h.consistent) (hwork.distinct h.consistent h.distinct)
    (hwork.config_eq h.consistent) (h.past_after turn.advance) (h.after_le_expiring hx)

/-- An iteration that gets no further than its poll leaves them so, -/
theorem of_interrupted (h : Timely config timeline c) (hx : c.expiring turn = none)
    (hgoing : (c.iterate turn).failure = none) :
    Timely config (timeline ++ stamped (c.host.clock.after turn.advance)
      (c.host.callsSince (c.iterate turn).state.host)) (c.iterate turn).state := by
  have hstages : ((c.watched turn).andThen fun w => w.pollAndServe turn).failure = none := hgoing
  have hlatched : (c.watched turn).state.latched turn = none := by
    cases hpoll : turn.pollFailure with
    | none =>
        obtain ⟨x, hsome⟩ := exists_expiring hpoll hgoing
        cases hx.symm.trans hsome
    | some kind => simp [latched, Host.poll, hpoll]
  have hstate : (c.iterate turn).state = ((c.watched turn).state.pollAndServe turn).state :=
    (Stage.going_of_andThen hstages).2.2
  have hwork := work_iterate c turn
  have htended : Tended config.idleTimeout (c.host.clock.after turn.advance) c
      ((c.watched turn).state.pollAndServe turn).state :=
    (tended_watched h.consistent turn).trans
      (.of_calm (h.watched turn).consistent (calm_pollAndServe hlatched)
        (.of_roster_eq (roster_pollAndServe hlatched)))
  have hclock : (c.iterate turn).state.host.clock = c.host.clock.after turn.advance := by
    rw [hstate, clock_pollAndServe hlatched, (Unstirred.watched h.consistent turn).clock]
  rw [← hstate] at htended
  exact h.tended htended (hwork.consistent h.consistent) (hwork.distinct h.consistent h.distinct)
    (hwork.config_eq h.consistent) (h.past_after turn.advance) (by rw [hclock])

/-- and so does one that comes to dismiss members. -/
theorem of_expiring (h : Timely config timeline c) (hx : c.expiring turn = some x) :
    Timely config (timeline ++ stamped (c.host.clock.after turn.advance)
      (c.host.callsSince (c.iterate turn).state.host)) (c.iterate turn).state := by
  have hlate := h.expiring hx
  have htended := tended_expiring h.consistent h.distinct (h.settings.symm ▸ h.armed) hx
  rw [h.settings] at htended
  obtain ⟨y, hstate, hwork, hdismissed, hclock⟩ := iterate_dismisses hx hlate.consistent
  rw [hstate, Stage.state_going]
  exact h.tended (htended.trans hdismissed) (hwork.consistent hlate.consistent)
    (hwork.distinct hlate.consistent hlate.distinct)
    ((hwork.config_eq hlate.consistent).trans (hlate.settings.trans h.settings.symm))
    (h.past_after turn.advance) (hclock ▸ h.after_le_expiring hx)

end Timely

/-- In a run timers are always up to date. -/
theorem Timed.timely (horderly : host.Orderly) (h : Timed config host c timeline) :
    Timely config timeline c := by
  induction h with
  | start h => exact .start horderly h
  | @iterate c timeline turn _ hgoing ih =>
      cases hx : c.expiring turn with
      | none => exact ih.of_interrupted hx hgoing
      | some x => exact ih.of_expiring hx

/-! ### Who is dismissed -/

/-- Between two states exactly those members have gone who are overdue. -/
structure Expired (limit : Option Duration) (timeline : List (Instant × Call)) (now : Instant)
    (before after : Coordinator) : Prop where
  /-- A member goes if it is overdue, and stays as it is if not. -/
  members : ∀ {handle member}, before.roster.get? handle = some member →
    ∃ active, LastActive timeline member.stream.id active ∧
      after.roster.get? handle = if Overdue limit active now then none else some member
  nobodyElse : ∀ {handle}, before.roster.get? handle = none → after.roster.get? handle = none
  /-- Nobody is overdue any more. -/
  onTime : ∀ {handle member active}, after.roster.get? handle = some member →
    LastActive timeline member.stream.id active → ¬ Overdue limit active now
  /-- Without a limit nobody goes, and nothing else is done. -/
  never : limit = none → after = before

theorem get?_dismissIdle (h : Consistent c) (now : Instant) (handle : Handle) :
    (c.dismissIdle now).roster.get? handle =
      if handle ∈ c.roster.overdue now then none else c.roster.get? handle := by
  rw [dismissIdle_eq, get?_dismissEach h, map_fst_overdueLosses]

theorem Timely.mem_overdue_iff (h : Timely config timeline c)
    (hget : c.roster.get? handle = some member) :
    handle ∈ c.roster.overdue now ↔ Overdue config.idleTimeout member.timer.started now := by
  rw [mem_overdue h.consistent.roster, ← h.armed handle member hget, ← ranOut_iff_overdue]
  constructor
  · rintro ⟨member', hget', hout⟩
    obtain rfl : member = member' := Option.some.inj (hget.symm.trans hget')
    exact hout
  · exact fun hout => ⟨member, hget, hout⟩

theorem expired_dismissIdle (h : Timely config timeline c) (now : Instant) :
    Expired config.idleTimeout timeline now c (c.dismissIdle now) where
  members := by
    intro handle member hget
    refine ⟨_, h.members hget, ?_⟩
    rw [get?_dismissIdle h.consistent, hget]
    exact if_congr (h.mem_overdue_iff hget) rfl rfl
  nobodyElse := by
    intro handle hnone
    rw [get?_dismissIdle h.consistent, hnone, ite_self]
  onTime := by
    intro handle member active hafter hactive hover
    rw [get?_dismissIdle h.consistent] at hafter
    split at hafter
    next => cases hafter
    next hnot =>
      rw [hactive.unique (h.members hafter)] at hover
      exact hnot ((h.mem_overdue_iff hafter).2 hover)
  never := by
    intro hnone
    have hnobody : c.roster.overdue now = [] := by
      refine List.eq_nil_iff_forall_not_mem.2 fun handle hmem => ?_
      obtain ⟨member, hget, -⟩ := (mem_overdue h.consistent.roster).1 hmem
      obtain ⟨allowed, hlimit, -⟩ := (h.mem_overdue_iff hget).1 hmem
      cases hnone.symm.trans hlimit
    rw [dismissIdle, hnobody]
    rfl

/-! ### How long to wait -/

/-- The wait that is chosen at a time is as long as it may be. -/
structure Waits (config : CoordinatorConfig) (timeline : List (Instant × Call)) (now : Instant)
    (w : Coordinator) : Prop where
  default : (w.waitTime now).nanos ≤ config.pollTimeout.nanos
  /-- No member is overdue before the wait is over, and there is no wait if one is overdue now. -/
  members : ∀ {handle member}, w.roster.get? handle = some member →
    ∃ active, LastActive timeline member.stream.id active ∧
      (∀ allowed, config.idleTimeout = some allowed →
        (w.waitTime now).nanos ≤ allowed.nanos - (now.since active).nanos) ∧
      (Overdue config.idleTimeout active now → w.waitTime now = .zero)
  /-- Unless there is work, the wait is no shorter than these bounds require. -/
  reached : w.hasWork = false → w.waitTime now = config.pollTimeout ∨
    ∃ handle member active allowed, w.roster.get? handle = some member ∧
      LastActive timeline member.stream.id active ∧ config.idleTimeout = some allowed ∧
        (w.waitTime now).nanos = allowed.nanos - (now.since active).nanos

/-- What is left of a member's timer. -/
theorem Timely.left_eq (h : Timely config timeline w) (hget : w.roster.get? handle = some member)
    (now : Instant) :
    member.timer.left now = config.idleTimeout.map fun allowed =>
      ⟨allowed.nanos - (now.since member.timer.started).nanos⟩ := by
  rw [Timer.left, h.armed handle member hget]

theorem Timely.waitTime_eq (h : Timely config timeline w) (now : Instant) :
    w.waitTime now = if w.hasWork then .zero else
      shortestWait config.pollTimeout
        (w.roster.members.toList.map fun entry => entry.2.timer.left now) := by
  rw [waitTime, h.settings]

/-- No member's time is up before the wait is over. -/
theorem Timely.waitTime_le (h : Timely config timeline w)
    (hget : w.roster.get? handle = some member) {allowed : Duration}
    (hlimit : config.idleTimeout = some allowed) (now : Instant) :
    (w.waitTime now).nanos ≤ allowed.nanos - (now.since member.timer.started).nanos := by
  rw [h.waitTime_eq]
  split
  next => exact Nat.zero_le _
  next =>
    have hentry := h.consistent.roster.members.mem_toList.2 hget
    refine (shortestWait_spec _ _).2 ⟨_⟩ (List.mem_map.2 ⟨(handle, member), hentry, ?_⟩)
    rw [h.left_eq hget, hlimit]
    rfl

theorem waits (h : Timely config timeline w) (now : Instant) : Waits config timeline now w where
  default := by
    rw [h.waitTime_eq]
    split
    · exact Nat.zero_le _
    · exact shortestWait_le_default _ _
  members := by
    intro handle member hget
    refine ⟨_, h.members hget, fun allowed hlimit => h.waitTime_le hget hlimit now, ?_⟩
    rintro ⟨allowed, hlimit, hover⟩
    have hnone := h.waitTime_le hget hlimit now
    rw [Nat.sub_eq_zero_of_le hover, Nat.le_zero] at hnone
    exact congrArg Duration.mk hnone
  reached := by
    intro hidle
    rw [h.waitTime_eq, hidle]
    refine (shortestWait_spec _ _).1.imp id fun hmem => ?_
    obtain ⟨⟨handle, member⟩, hentry, hleft⟩ := List.mem_map.1 hmem
    have hget : w.roster.get? handle = some member :=
      h.consistent.roster.members.mem_toList.1 hentry
    simp only [h.left_eq hget] at hleft
    obtain ⟨allowed, hlimit, hwait⟩ := Option.map_eq_some_iff.1 hleft
    exact ⟨handle, member, _, allowed, hget, h.members hget, hlimit,
      congrArg Duration.nanos hwait.symm⟩

/-! ### Main result -/

/-- **Idle expiry is exact.** Let a coordinator be started on a system whose connections in store
are different streams. Then a wait that is chosen for a time is over when the next member is
overdue. When an iteration comes to dismiss overdue members, which it does when the lag has passed
since its poll was over, exactly those go whose last sign of life lies as far back as the limit,
and that is how the iteration ends. -/
theorem idle_expiry_exact (horderly : host.Orderly) (h : Timed config host c timeline)
    (turn : Turn) :
    (∀ now, Waits config timeline now (c.watched turn).state) ∧
      ∀ x, c.expiring turn = some x →
        let polled := c.host.clock.after turn.advance
        let now := polled.after turn.lag
        x.host.clock = now ∧
          Expired config.idleTimeout (timeline ++ stamped polled (c.host.callsSince x.host)) now x
            (x.dismissIdle now) ∧
            ∃ y, c.iterate turn = .going y ∧ y.roster = (x.dismissIdle now).roster := by
  have htimely := h.timely horderly
  refine ⟨waits (htimely.watched turn), fun x hx => ?_⟩
  have hclock := clock_expiring htimely.consistent hx
  obtain ⟨level, hstate⟩ := iterate_of_expiring hx
  rw [hclock] at hstate
  exact ⟨hclock, expired_dismissIdle (htimely.expiring hx) _, _, hstate, rfl⟩

/-- A peer may be silent for thirty seconds. -/
def impatientConfig : CoordinatorConfig :=
  { CoordinatorConfig.default with idleTimeout := some (.ofSecs 30) }

/-- The peer announces itself after five seconds, and the work takes two seconds more. -/
def lateAnnouncementTurn : Turn :=
  { Observed.announcementTurn with advance := .ofSecs 5, lag := .ofSecs 2 }

/-- Nothing happens for eighteen seconds, and the work takes some time. -/
def lullTurn (lag : Duration) : Turn :=
  { Observed.quietTurn with advance := .ofSecs 18, lag := lag }

open Observed in
/-- A peer announces itself five seconds after it has connected, in an iteration that takes two
seconds more. Its time is up thirty seconds after the announcement, and not a nanosecond earlier. -/
theorem silent_peer_goes_on_time :
    ∃ c timeline x, Timed impatientConfig .idle c timeline ∧
      (∀ now, Waits impatientConfig timeline now (c.watched (lullTurn (.ofSecs 10))).state) ∧
      c.expiring (lullTurn (.ofSecs 10)) = some x ∧
      Expired impatientConfig.idleTimeout
        (timeline ++ stamped (c.host.clock.after (.ofSecs 18)) (c.host.callsSince x.host))
        ((c.host.clock.after (.ofSecs 18)).after (.ofSecs 10)) x
        (x.dismissIdle ((c.host.clock.after (.ofSecs 18)).after (.ofSecs 10))) ∧
      x.roster.size = 1 ∧ (c.iterate (lullTurn (.ofSecs 10))).state.roster.size = 0 ∧
        (c.iterate (lullTurn ⟨9999999999⟩)).state.roster.size = 1 := by
  have horderly : Host.idle.Orderly := ⟨by decide, by decide⟩
  have hstart := @Timed.start impatientConfig .idle _ rfl
  have hrun := (hstart.iterate arrivalTurn (by decide +kernel)).iterate lateAnnouncementTurn
    (by decide +kernel)
  obtain ⟨hwaits, hexpired⟩ := idle_expiry_exact horderly hrun (lullTurn (.ofSecs 10))
  exact ⟨_, _, _, hrun, hwaits, (Option.some_get (by decide +kernel)).symm,
    (hexpired _ (Option.some_get _).symm).2.1, by decide +kernel, by decide +kernel,
    by decide +kernel⟩

end Coordinator
end Rendezvous
