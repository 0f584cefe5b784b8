import Rendezvous.Proofs.Coordinator.InVain
import Rendezvous.Proofs.Coordinator.Tally

/-!
# Rendezvous.Proofs.Coordinator.AtRest

**A coordinator that gets nothing done goes to sleep.** If all operations of an iteration would
block, it forgets all readiness, what its poll has just told of included. Since whoever is
overdue is dismissed at the end, no timer has run out either, and the next poll waits.

* `AtRest` is the state in which the loop can wait, and `AtRest.waitTime_pos` says that it
  does; `Unstirred.watched` takes it to the next poll.
* `atRest_iterate` is the iteration.
-/

namespace Rendezvous
namespace Coordinator

variable {a b c c' : Coordinator} {handle : Handle} {member : Member} {turn : Turn}

/-! ### What decides the wait -/

/-- Nothing changes of what the wait depends on, but that members leave. -/
structure Unstirred (c c' : Coordinator) : Prop where
  config : c'.config = c.config
  clock : c'.host.clock = c.host.clock
  listener : c'.listenerLatch = c.listenerLatch
  packets : c'.packetLatch = c.packetLatch
  members : ∀ {handle member'}, c'.roster.get? handle = some member' →
    ∃ member, c.roster.get? handle = some member ∧ member'.latch = member.latch ∧
      member'.timer = member.timer

namespace Unstirred

theorem of_roster_eq (hroster : c'.roster = c.roster) (hconfig : c'.config = c.config)
    (hclock : c'.host.clock = c.host.clock) (hlistener : c'.listenerLatch = c.listenerLatch)
    (hpackets : c'.packetLatch = c.packetLatch) : Unstirred c c' :=
  ⟨hconfig, hclock, hlistener, hpackets, fun hget => ⟨_, hroster ▸ hget, rfl, rfl⟩⟩

theorem refl (c : Coordinator) : Unstirred c c := of_roster_eq rfl rfl rfl rfl rfl

theorem trans (hab : Unstirred a b) (hbc : Unstirred b c) : Unstirred a c where
  config := hbc.config.trans hab.config
  clock := hbc.clock.trans hab.clock
  listener := hbc.listener.trans hab.listener
  packets := hbc.packets.trans hab.packets
  members := by
    intro handle member' hget
    obtain ⟨middle, hmiddle, hlatch, htimer⟩ := hbc.members hget
    obtain ⟨member, hmember, hlatch', htimer'⟩ := hab.members hmiddle
    exact ⟨member, hmember, hlatch.trans hlatch', htimer.trans htimer'⟩

theorem dismiss (h : Consistent c) (handle : Handle) (departure : Departure) :
    Unstirred c (c.dismiss handle departure) := by
  cases hget : c.roster.get? handle with
  | none =>
      rw [dismiss_of_absent hget]
      exact .refl c
  | some member =>
      obtain ⟨-, -, -, hlistener, hpackets, -, -⟩ := dismiss_frame hget departure
      refine ⟨?_, ?_, hlistener, hpackets, fun hafter => ?_⟩
      · unfold Coordinator.dismiss
        split <;> rfl
      · unfold Coordinator.dismiss
        split
        · rfl
        · simp only
          split <;> rfl
      · rw [get?_dismiss h.roster] at hafter
        split at hafter
        · cases hafter
        · exact ⟨_, hafter, rfl, rfl⟩

theorem dismissEach (h : Consistent c) (losses : List (Handle × Departure)) :
    Unstirred c (c.dismissEach losses) := by
  induction losses generalizing c with
  | nil => exact .refl c
  | cons loss losses ih => exact (dismiss h loss.1 loss.2).trans (ih (h.dismiss loss.1 loss.2))

theorem watchMember (c : Coordinator) (failed : List (Handle × IoKind)) (handle : Handle) :
    Unstirred c (watchMember (c, failed) handle).1 := by
  unfold Coordinator.watchMember
  simp only
  split
  · exact .refl c
  · split
    · exact .refl c
    · split
      next heq =>
        exact .of_roster_eq rfl rfl (congrArg (fun answer => answer.2.clock) heq).symm rfl rfl
      next heq =>
        refine ⟨rfl, (congrArg (fun answer => answer.2.clock) heq).symm, rfl, rfl, fun hget => ?_⟩
        obtain ⟨member, hmember, ⟨-, rfl⟩ | ⟨-, rfl⟩⟩ := get?_of_modifyMember hget
        · exact ⟨_, hmember, rfl, rfl⟩
        · exact ⟨_, hmember, rfl, rfl⟩

theorem watchMembers (h : Consistent c) : Unstirred c c.watchMembers := by
  have hasked : Unstirred c (c.askEach c.roster.order).1 := by
    exact List.foldlRecOn
      (motive := fun state : Coordinator × List (Handle × IoKind) => Unstirred c state.1) _ _
      (.refl c) fun state hbefore handle _ => hbefore.trans (watchMember state.1 state.2 handle)
  rw [watchMembers_eq]
  exact hasked.trans (.dismissEach (h.calm (calm_watchEach (p := anyone) c _ [])) _)

theorem watchPackets (c : Coordinator) : Unstirred c c.watchPackets.state := by
  unfold Coordinator.watchPackets
  simp only
  split
  · exact .refl c
  · split
    next heq =>
      exact .of_roster_eq rfl rfl (congrArg (fun answer => answer.2.clock) heq).symm rfl rfl
    next heq =>
      exact .of_roster_eq rfl rfl (congrArg (fun answer => answer.2.clock) heq).symm rfl rfl

/-- So it is from the head of the loop to the poll. -/
theorem watched (h : Consistent c) (turn : Turn) : Unstirred c (c.watched turn).state := by
  have hsupply : Unstirred c { c with host := c.host.supply turn.supply } :=
    .of_roster_eq rfl rfl (c.host.clock_supply turn.supply) rfl rfl
  have hsupplied := h.calm (calm_supply (p := anyone) c turn.supply)
  refine Stage.andThen_of (P := fun b => Unstirred c b ∧ Consistent b)
    ⟨hsupply.trans (watchPackets _), hsupplied.calm (calm_watchPackets (p := anyone) _)⟩
    (fun _ hb => hb.1) fun b hb => hb.1.trans (watchMembers hb.2)

end Unstirred

/-- The state in which the loop can wait: no latch is set and no timer has run out. -/
structure AtRest (c : Coordinator) : Prop where
  listener : c.listenerLatch = false
  packets : c.packetLatch = .clear
  members : ∀ {handle member}, c.roster.get? handle = some member →
    member.latch = .clear ∧ member.timer.ranOut c.host.clock = false

theorem AtRest.unstirred (h : AtRest c) (hsame : Unstirred c c') : AtRest c' where
  listener := hsame.listener.trans h.listener
  packets := hsame.packets.trans h.packets
  members := by
    intro handle member' hget
    obtain ⟨member, hmember, hlatch, htimer⟩ := hsame.members hget
    rw [hlatch, htimer, hsame.clock]
    exact h.members hmember

/-- Nobody is overdue once everybody who was has been dismissed. -/
theorem AtRest.dismissIdle (h : Consistent c) (hlistener : c.listenerLatch = false)
    (hpackets : c.packetLatch = .clear)
    (hmembers : ∀ {handle member}, c.roster.get? handle = some member → member.latch = .clear) :
    AtRest (c.dismissIdle c.host.clock) := by
  have hsame := Unstirred.dismissEach h (c.overdueLosses c.host.clock)
  rw [← dismissIdle_eq] at hsame
  refine ⟨hsame.listener.trans hlistener, hsame.packets.trans hpackets, fun {handle member'} hget => ?_⟩
  rw [dismissIdle_eq, get?_dismissEach h, map_fst_overdueLosses] at hget
  split at hget
  next => cases hget
  next hontime =>
    -- Whoever is left was not among those overdue, and the clock has not moved on since.
    refine ⟨hmembers hget, Bool.eq_false_iff.2 fun hout => hontime ?_⟩
    rw [hsame.clock] at hout
    exact (mem_overdue h.roster).2 ⟨_, hget, hout⟩

theorem AtRest.waitTime_pos (h : AtRest c) (hwf : c.roster.WellFormed)
    (hpoll : 0 < c.config.pollTimeout.nanos) : 0 < (c.waitTime c.host.clock).nanos := by
  have hidle : c.hasWork = false := by
    simp only [hasWork, h.listener, packetWork, h.packets, Bool.or_eq_false_iff]
    refine ⟨⟨trivial, rfl, rfl⟩, List.any_eq_false.2 fun entry hmem => ?_⟩
    obtain ⟨hlatch, -⟩ := h.members (hwf.members.mem_toList.1 hmem)
    simp [memberWork, hlatch, Latch.clear]
  rw [waitTime, hidle]
  refine shortestWait_pos hpoll fun left hmem hzero => ?_
  obtain ⟨entry, hentry, rfl⟩ := List.mem_map.1 hmem
  obtain ⟨-, hontime⟩ := h.members (hwf.members.mem_toList.1 hentry)
  simp [Timer.ranOut, hzero] at hontime

/-- What comes after the members leaves a coordinator at rest that has no latch set but that
of the packet socket. -/
theorem atRest_finish (h : Consistent c) {lag : Duration} {level : Nat}
    (hlistener : c.listenerLatch = false)
    (hmembers : ∀ {handle member}, c.roster.get? handle = some member → member.latch = .clear)
    (hfruitless : Added Call.fruitless c.host (finish lag level c).state.host) :
    (finish lag level c).failure = none ∧ AtRest (finish lag level c).state := by
  have hpackets := (Stage.added_of_andThen host (calm_servePackets (p := anyone) c).calls
    (fun b => ((calm_elapse (p := anyone) b lag).trans
      (calm_dismissIdle _ _ fun _ _ => trivial)).calls) hfruitless).1
  obtain ⟨host, scratch, hserved⟩ := servePackets_of_fruitless h hpackets
  have hconsistent := h.calm (calm_servePackets (p := anyone) c)
  rw [hserved] at hconsistent
  have hlate := hconsistent.calm (calm_elapse (p := nobody) _ lag)
  rw [finish, hserved]
  exact ⟨rfl, (AtRest.dismissIdle hlate hlistener rfl hmembers).unstirred
    (.of_roster_eq rfl rfl rfl rfl rfl)⟩

theorem calls_serve (c : Coordinator) (lag : Duration) :
    c.host.calls <+: (c.serve lag).state.host.calls :=
  (calls_acceptOne c _).trans (Stage.calls_andThen host fun b =>
    (calls_serveEach b _ _).trans (calm_finish lag c.scratch.level _).calls)

/-- The trace only grows. -/
theorem calls_iterate (c : Coordinator) (turn : Turn) :
    c.host.calls <+: (c.iterate turn).state.host.calls := by
  rcases serving_cases c turn with ⟨-, hcalm⟩ | ⟨w, ready, s, hw, hready, hs, -, hiterate⟩
  · exact hcalm.calls
  · have hwatched := (calm_watched c turn).calls
    have haccepted := calls_acceptOne ready ready.host.clock
    rw [hw] at hwatched
    rw [hs] at haccepted
    rw [hiterate]
    exact (hwatched.trans (calm_latched (p := nobody) hready).calls).trans
      (haccepted.trans ((calls_serveEach s _ _).trans (calm_finish _ _ _).calls))

/-- Service in vain leaves the coordinator at rest. -/
theorem atRest_serve (h : Consistent c) {lag : Duration}
    (hfruitless : Added Call.fruitless c.host (c.serve lag).state.host) :
    (c.serve lag).failure = none ∧ AtRest (c.serve lag).state := by
  have hserve : c.serve lag = (c.acceptOne c.host.clock).andThen fun s =>
    finish lag c.scratch.level (s.serveMembers c.host.clock) := rfl
  have hserved (s : Coordinator) : s.host.calls <+: (s.serveMembers c.host.clock).host.calls :=
    calls_serveEach s _ _
  have hfinished (s : Coordinator) := (calm_finish lag c.scratch.level s).calls
  obtain ⟨haccept, hrest⟩ := Stage.added_of_andThen host (calls_acceptOne c c.host.clock)
    (fun b => (hserved b).trans (hfinished _)) hfruitless
  obtain ⟨host, haccepted⟩ := acceptOne_of_fruitless haccept
  have hconsistent := h.acceptOne c.host.clock
  rw [haccepted] at hconsistent hrest
  rw [hserve, haccepted]
  -- The members come before the packet socket, and each adds its part of the calls.
  have hmembers := (hrest rfl).split (hserved _) (hfinished _)
  exact atRest_finish (hconsistent.serveEach c.host.clock _)
    (serveEach_of_fruitless hconsistent hmembers.1).2
    (serveMembers_of_fruitless hconsistent hmembers.1) hmembers.2

/-- An iteration in which nothing gets done leaves the coordinator at rest. -/
theorem atRest_iterate (h : Consistent c) (hturn : turn.pollFailure = none)
    (hwatched : (c.watched turn).failure = none)
    (hfruitless : Added Call.fruitless c.host (c.iterate turn).state.host) :
    (c.iterate turn).failure = none ∧ AtRest (c.iterate turn).state := by
  have hiterate : c.iterate turn = (c.watched turn).andThen fun c => c.pollAndServe turn := rfl
  have hcalm := calm_watched c turn
  rcases hstage : c.watched turn with ⟨w, failure⟩
  rw [hstage] at hwatched hcalm hiterate
  obtain rfl : failure = none := hwatched
  obtain ⟨ready, hready⟩ := exists_latched w hturn
  have hlatched := hcalm.trans (calm_latched hready)
  rw [hiterate.trans (pollAndServe_of_latched hready)] at hfruitless ⊢
  -- Whatever the poll has told of is latched by now, and service forgets all of it.
  exact atRest_serve (h.calm hlatched) (hfruitless.split hlatched.calls (calls_serve _ _)).2

/-! ### The settings -/

theorem followed_config : Followed fun c c' => c'.config = c.config :=
  followed_of_view Tally.config (fun _ _ _ _ _ => rfl) (fun _ _ => rfl) fun _ _ _ => rfl

/-- The settings stay as they are. -/
theorem Work.config_eq {done : List Dispatch} (h : Work a done c) (ha : Consistent a) :
    c.config = a.config :=
  h.follows followed_config
    (fun handle msg h => congrArg Tally.config (actOnControl_tally h.roster handle msg)) ha

/-- The settings are those of the start. -/
theorem Reachable.config_eq {config : CoordinatorConfig} (h : Reachable config c) :
    c.config = config := by
  obtain ⟨host, done, hworked⟩ := exists_worked h
  obtain ⟨first, hstart, hwork⟩ := hworked.exists_work
  exact (hwork.config_eq (consistent_start hstart)).trans
    (congrArg Tally.config (tally_start hstart))

end Coordinator
end Rendezvous
