import Rendezvous.Proofs.Coordinator.Registrations
import Rendezvous.Proofs.Coordinator.WakeUp

/-!
# Rendezvous.Proofs.Coordinator.Routing

**Every event gets to the connection it was raised for.** Slots are reused, and tokens with them,
so that an event under a stale registration would count for whoever has the slot now. At each poll
the poller's table and the roster agree (`Coherent`): every member is registered once, under the
token of its slot, for what it needs, and nobody else is. Then each event that the poll reports is
latched for the source that was registered under its token, and for no other (`Heard`).

* `coherent_registrations`: agreement is a matter of the state, once the table is what the state
  calls for (`Work.registered_eq`).
* `heard_latch` and `Heard.append`: one event, and events one after another.
-/

namespace Rendezvous
namespace Coordinator

variable {a b c c' : Coordinator} {done : List Dispatch} {handle : Handle} {member : Member}
  {host : Host} {event : Event} {events more : List Event} {table : List Registration}

/-! ### The table at a poll -/

/-- The poller watches the two sockets and the members of a coordinator, each once, under a token
of its own, and the members for what they need. -/
structure Coherent (table : List Registration) (c : Coordinator) : Prop where
  /-- A member is registered under the token of its slot, for what is noted in its record. -/
  members : ∀ {handle member}, c.roster.get? handle = some member →
    ⟨.stream member.stream.id, tokenOfMember handle, member.watch⟩ ∈ table
  /-- A connection that is registered is a member's. -/
  streams : ∀ {id token interest}, ⟨.stream id, token, interest⟩ ∈ table →
    ∃ handle member, c.roster.get? handle = some member ∧ member.stream.id = id
  listener : ⟨.listener, tokenOfListener, .read⟩ ∈ table
  packets : ⟨.packetSocket, tokenOfPackets, c.packetWatch⟩ ∈ table
  sources : (table.map (·.source)).Nodup
  tokens : (table.map (·.token)).Nodup
  /-- What is noted in a record is what the member needs. -/
  fitted : ∀ {handle member}, c.roster.get? handle = some member →
    member.watch = .onDemand member.hasOutput

/-- No two members have one token, and none has that of a socket. -/
theorem nodup_tokens (hwf : c.roster.WellFormed) : (c.registrations.map (·.token)).Nodup := by
  have hmembers : (c.roster.registrations.map (·.token)).Nodup := by
    rw [Roster.registrations, List.map_filterMap]
    refine hwf.members.nodup_keys.filterMap fun handle other token hfirst hsecond => ?_
    simp only [Roster.registrationOf, Option.map_map, Option.mem_def, Option.map_eq_some_iff,
      Function.comp_apply] at hfirst hsecond
    obtain ⟨_, -, rfl⟩ := hfirst
    obtain ⟨_, -, hsame⟩ := hsecond
    exact tokenOfMember_inj.1 hsame.symm
  have hlarge {token : Nat} (h : token ∈ c.roster.registrations.map (·.token)) :
      firstMemberToken ≤ token := by
    obtain ⟨held, hheld, rfl⟩ := List.mem_map.1 h
    obtain ⟨handle, member, -, rfl⟩ := (Roster.mem_registrations hwf).1 hheld
    exact Nat.le_add_right ..
  refine List.nodup_cons.2 ⟨fun h => ?_, List.nodup_cons.2 ⟨fun h => ?_, hmembers⟩⟩
  · rcases List.mem_cons.1 h with h | h
    · cases h
    · exact absurd (hlarge h) (by simp [firstMemberToken, tokenOfListener])
  · exact absurd (hlarge h) (by simp [firstMemberToken, tokenOfPackets])

/-- No source is called for twice, as no two members have one stream. -/
theorem nodup_sources (hwf : c.roster.WellFormed) (hdistinct : Distinct c) :
    (c.registrations.map (·.source)).Nodup := by
  have hmembers : (c.roster.registrations.map (·.source)).Nodup := by
    rw [Roster.registrations, List.map_filterMap]
    refine hwf.members.nodup_keys.filterMap fun handle other token hfirst hsecond => ?_
    simp only [Roster.registrationOf, Option.map_map, Option.mem_def, Option.map_eq_some_iff,
      Function.comp_apply] at hfirst hsecond
    obtain ⟨member, hget, rfl⟩ := hfirst
    obtain ⟨member', hget', hsame⟩ := hsecond
    exact hdistinct.apart hget hget' (Source.stream.inj hsame.symm)
  have hstream {source : Source} (h : source ∈ c.roster.registrations.map (·.source)) :
      ∃ id, source = .stream id := by
    obtain ⟨held, hheld, rfl⟩ := List.mem_map.1 h
    exact Roster.source_of_mem_registrations hheld
  refine List.nodup_cons.2 ⟨fun h => ?_, List.nodup_cons.2 ⟨fun h => ?_, hmembers⟩⟩
  · rcases List.mem_cons.1 h with h | h
    · cases h
    · obtain ⟨_, h⟩ := hstream h
      cases h
  · obtain ⟨_, h⟩ := hstream h
    cases h

theorem coherent_registrations (hwf : c.roster.WellFormed) (hdistinct : Distinct c)
    (hfitted : ∀ {handle member}, c.roster.get? handle = some member →
      member.watch = .onDemand member.hasOutput) : Coherent c.registrations c where
  members := fun {handle member} hget =>
    List.mem_cons_of_mem _ (List.mem_cons_of_mem _
      ((Roster.mem_registrations hwf).2 ⟨handle, member, hget, rfl⟩))
  streams := by
    intro id token interest hmem
    rcases List.mem_cons.1 hmem with h | hmem
    · cases h
    rcases List.mem_cons.1 hmem with h | hmem
    · cases h
    obtain ⟨handle, member, hget, heq⟩ := (Roster.mem_registrations hwf).1 hmem
    cases heq
    exact ⟨handle, member, hget, rfl⟩
  listener := List.mem_cons_self
  packets := List.mem_cons_of_mem _ List.mem_cons_self
  sources := nodup_sources hwf hdistinct
  tokens := nodup_tokens hwf
  fitted := hfitted

/-! ### Events -/

/-- Latching some events comes to latching each for what it was raised for. -/
structure Heard (table : List Registration) (events : List Event) (c c' : Coordinator) :
    Prop where
  listener : c'.listenerLatch = (c.listenerLatch || !(raisedFor table .listener events).isEmpty)
  packets : c'.packetLatch = c.packetLatch.mergeAll (raisedFor table .packetSocket events)
  members : ∀ handle, c'.roster.get? handle = (c.roster.get? handle).map fun member =>
    { member with
      latch := member.latch.mergeAll (raisedFor table (.stream member.stream.id) events) }
  /-- No event is noted to be a stale one. -/
  log : c'.host.log = c.host.log

namespace Heard

/-- Nothing is latched. -/
theorem silent (hlistener : c'.listenerLatch = c.listenerLatch)
    (hpackets : c'.packetLatch = c.packetLatch) (hroster : c'.roster = c.roster)
    (hlog : c'.host.log = c.host.log) : Heard table [] c c' := by
  refine ⟨?_, hpackets, fun handle => ?_, hlog⟩
  · simp [raisedFor, hlistener]
  · rw [hroster]
    cases c.roster.get? handle <;> rfl

theorem append (hab : Heard table events a b) (hbc : Heard table more b c) :
    Heard table (events ++ more) a c where
  listener := by
    rw [hbc.listener, hab.listener, raisedFor_append, Bool.or_assoc]
    cases raisedFor table .listener events <;> simp
  packets := by rw [hbc.packets, hab.packets, raisedFor_append, Latch.mergeAll_append]
  members := by
    intro handle
    rw [hbc.members, hab.members, Option.map_map]
    simp only [Function.comp_def, raisedFor_append, Latch.mergeAll_append]
  log := hbc.log.trans hab.log

end Heard

/-- An event is latched for the source that is registered under its token. -/
theorem heard_latch (hwf : c.roster.WellFormed) (hdistinct : Distinct c) {held : Registration}
    (hheld : held ∈ c.registrations) (htoken : held.token = event.token) :
    Heard c.registrations [event] c (c.latch event) := by
  have hraised := raisedFor_singleton (nodup_tokens hwf) hheld htoken
  unfold latch
  rcases List.mem_cons.1 hheld with rfl | hheld
  · rw [if_pos htoken.symm]
    refine ⟨?_, ?_, fun handle => ?_, rfl⟩
    · simp [hraised]
    · simp [hraised, Latch.mergeAll]
    · cases c.roster.get? handle <;> simp [hraised, Latch.mergeAll]
  rcases List.mem_cons.1 hheld with rfl | hheld
  · rw [if_neg (by simp [← htoken, tokenOfPackets, tokenOfListener]), if_pos htoken.symm]
    refine ⟨?_, ?_, fun handle => ?_, rfl⟩
    · simp [hraised]
    · simp [hraised, Latch.mergeAll]
    · cases c.roster.get? handle <;> simp [hraised, Latch.mergeAll]
  obtain ⟨handle, member, hget, rfl⟩ := (Roster.mem_registrations hwf).1 hheld
  simp only at htoken hraised
  have hoccupant : c.roster.members.occupant (event.token - firstMemberToken) = some handle := by
    have hpresent : c.roster.members.get? handle = some member := hget
    simp [← htoken, tokenOfMember, Slab.occupant, Slab.contains, hpresent]
  rw [if_neg (by simp [← htoken, tokenOfMember, firstMemberToken, tokenOfListener]),
    if_neg (by simp [← htoken, tokenOfMember, firstMemberToken, tokenOfPackets]; omega), hoccupant]
  refine ⟨?_, ?_, fun other => ?_, rfl⟩
  · simp [hraised, modifyMember]
  · simp [hraised, Latch.mergeAll, modifyMember]
  · change (c.roster.modify handle _).get? other = _
    rw [Roster.get?_modify]
    by_cases hsame : other = handle
    · subst hsame
      simp [hget, hraised, Latch.mergeAll]
    · rw [if_neg hsame]
      cases hother : c.roster.get? other with
      | none => rfl
      | some member' =>
          have hid : member'.stream.id ≠ member.stream.id := fun hid =>
            hsame (hdistinct.apart hother hget hid)
          simp [hraised, hid, Latch.mergeAll]

/-- Latching some events changes neither who is attached nor what is called for, so that each of
them is latched as the first one would be. -/
theorem heard_latches (h : Consistent c) (hdistinct : Distinct c)
    (hevents : ∀ event ∈ events, ∃ held ∈ c.registrations, held.token = event.token) :
    Heard c.registrations events c (events.foldl latch c) := by
  induction events generalizing c with
  | nil => exact .silent rfl rfl rfl rfl
  | cons event events ih =>
      obtain ⟨hevent, hrest⟩ := List.forall_mem_cons.1 hevents
      obtain ⟨held, hheld, htoken⟩ := hevent
      have hsame := registrations_latch h event
      have hlater := ih (h.calm (calm_latch (p := nobody) c event))
        ((kept_latch c event).toWritesKept.distinct hdistinct) (hsame.symm ▸ hrest)
      rw [hsame] at hlater
      exact (heard_latch h.roster hdistinct hheld htoken).append hlater

theorem poll_ok {polled : Host} {timeout : Duration} {turn : Turn}
    (h : host.poll timeout turn = (.ok events, polled)) :
    events = turn.events ∧ polled.log = host.log := by
  unfold Host.poll at h
  cases hfailure : turn.pollFailure with
  | some kind => simp [hfailure] at h
  | none =>
      simp only [hfailure, Prod.mk.injEq, Except.ok.injEq] at h
      obtain ⟨rfl, rfl⟩ := h
      exact ⟨rfl, rfl⟩

theorem heard_latched {turn : Turn} (h : Consistent c) (hdistinct : Distinct c)
    (hevents : ∀ event ∈ turn.events, ∃ held ∈ c.registrations, held.token = event.token)
    (hlatched : c.latched turn = some c') : Heard c.registrations turn.events c c' := by
  have hcalm := calm_poll (p := nobody) c (c.waitTime c.host.clock) turn
  have hkept := (kept_poll c (c.waitTime c.host.clock) turn).toWritesKept
  unfold latched at hlatched
  split at hlatched
  next => cases hlatched
  next events polled heq =>
    cases hlatched
    obtain ⟨rfl, hlog⟩ := poll_ok heq
    rw [heq] at hcalm hkept
    have hpolled : Heard c.registrations [] c { c with host := polled } :=
      .silent rfl rfl rfl hlog
    have hlatches : Heard c.registrations turn.events { c with host := polled }
        (turn.events.foldl latch { c with host := polled }) :=
      heard_latches (h.calm hcalm) (hkept.distinct hdistinct) hevents
    exact hpolled.append hlatches

/-! ### Main result -/

/-- A run can be observed. -/
theorem Worked.observed {config : CoordinatorConfig} (h : Worked config host c done) :
    ∃ o, Observed.Run config host o ∧ o.coordinator = c := by
  induction h with
  | start h => exact ⟨.first _, .start h, rfl⟩
  | @iterate c done turn _ hgoing ih =>
      obtain ⟨o, hrun, rfl⟩ := ih
      have hstep := o.coordinator_iterate turn
      exact ⟨_, hrun.iterate turn ((congrArg Stage.failure hstep).trans hgoing),
        congrArg Stage.state hstep⟩

/-- At a poll everything is watched for what it needs. -/
theorem Worked.polling {config : CoordinatorConfig} (horderly : host.Orderly)
    (h : Worked config host c done) {turn : Turn} (hgoing : (c.watched turn).failure = none) :
    ∃ o : Observed, o.Polling ∧ o.coordinator = (c.watched turn).state := by
  obtain ⟨o, hrun, rfl⟩ := h.observed
  have hwatch := o.coordinator_watch turn
  exact ⟨_, (hrun.settled horderly).watch ((congrArg Stage.failure hwatch).trans hgoing),
    congrArg Stage.state hwatch⟩

/-- **Registrations agree with the roster at every poll.** Let a coordinator start on a system
whose connections in store are different streams, let it have got as far as a poll, and let no
deregistering have failed on the way. Then the poller's table, as the requests since the start
have left it, agrees with the roster; and if the poll reports only tokens that are registered,
each event is latched for the source that it was raised for, whoever had the token before. -/
theorem events_reach_their_source {config : CoordinatorConfig} {turn : Turn}
    (horderly : host.Orderly) (h : Worked config host c done)
    (hgoing : (c.watched turn).failure = none)
    (hclean : ∀ call ∈ host.callsSince (c.watched turn).state.host, call.clings = false) :
    let w := (c.watched turn).state
    let table := registered (host.callsSince w.host)
    Coherent table w ∧
      ((∀ event ∈ turn.events, ∃ held ∈ table, held.token = event.token) →
        ∀ ready, w.latched turn = some ready → Heard table turn.events w ready) := by
  obtain ⟨first, hstart, hwork⟩ := h.exists_work
  obtain ⟨o, hpolling, ho⟩ := h.polling horderly hgoing
  have hconsistent := (h.reachable.consistent).calm (calm_watched c turn)
  have htable := (hwork.thenQuiet (work_watched c turn)).registered_eq horderly hstart hclean
  have hdistinct : Distinct (c.watched turn).state := ho ▸ hpolling.distinct
  have hfitted {handle : Handle} {member : Member}
      (hget : (c.watched turn).state.roster.get? handle = some member) :
      member.watch = .onDemand member.hasOutput :=
    hpolling.membersFitted (ho ▸ hget)
  simp only [htable]
  exact ⟨coherent_registrations hconsistent.roster hdistinct hfitted,
    fun hevents ready hready => heard_latched hconsistent hdistinct hevents hready⟩

open Observed in
/-- The first peer hangs up. -/
def hangUpTurn : Turn :=
  { arrivalTurn with
    supply := ⟨[], [(⟨0⟩, ⟨[.eof], []⟩)], [], [], [], [], []⟩
    events := [⟨firstMemberToken, ⟨true, false, true, false, false⟩⟩] }

/-- Something can be read from whoever has the first slot. -/
def nudgeTurn : Turn :=
  { Observed.quietTurn with events := [⟨firstMemberToken, ⟨true, false, false, false, false⟩⟩] }

open Observed in
/-- A peer connects and hangs up, and another gets its slot and its token: the event that comes
then is the second one's. -/
theorem reused_token_reaches_newcomer :
    ∃ c done, Worked .default .idle c done ∧
      let w := (c.watched nudgeTurn).state
      let table := registered (Host.idle.callsSince w.host)
      Coherent table w ∧ (∃ ready, w.latched nudgeTurn = some ready ∧
        Heard table nudgeTurn.events w ready) ∧
      raisedFor table (.stream ⟨0⟩) nudgeTurn.events = [] ∧
      raisedFor table (.stream ⟨1⟩) nudgeTurn.events = nudgeTurn.events := by
  have hstart := @Worked.start .default .idle _ rfl
  have hrun := ((hstart.iterate arrivalTurn (by decide +kernel)).iterate hangUpTurn
    (by decide +kernel)).iterate arrivalTurn (by decide +kernel)
  obtain ⟨hcoherent, hheard⟩ := @events_reach_their_source _ _ _ _ nudgeTurn
    ⟨by decide, by decide⟩ hrun (by decide +kernel) (by decide +kernel)
  refine ⟨_, _, hrun, hcoherent, ⟨_, rfl, hheard (by decide +kernel) _ rfl⟩, ?_, ?_⟩
  · decide +kernel
  · decide +kernel

end Coordinator
end Rendezvous
