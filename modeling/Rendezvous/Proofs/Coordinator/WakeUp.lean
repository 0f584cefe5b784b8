import Rendezvous.Proofs.Coordinator.Stages

/-!
# Rendezvous.Proofs.Coordinator.WakeUp

**A coordinator never waits for a report that will not come.** Whenever it polls
with something to write to a source whose latch is clear, the poller watches the
source for writing and owes a report; and no source is forgotten to be readable before
reading it would block.

* `Settled` is the invariant at the loop's head: every write side is covered.
* `Polling` is what watching makes of it, so what holds at each poll. It is reached
  member by member: `Watching` has those still to be watched and those the poller has
  refused, who are dismissed.
* `Ready` is what the work starts from and uses up member by member: whoever is still
  to be served is watched for writing only while there is something to write.
-/

namespace Rendezvous
namespace Coordinator

open Roster

namespace Observed

/-! ### The invariant -/

/-- Whenever a source was forgotten to be readable, reading it would have blocked. -/
structure ReadsDeclined (o : Observed) : Prop where
  listener : .cleared false ∉ o.listenerReads
  packets : .cleared false ∉ o.packetReads
  members : ∀ handle, .cleared false ∉ o.memberReads handle

/-- What holds after each stage of the loop, and so at its head: the write side of every
source is covered. -/
structure Settled (o : Observed) : Prop where
  roster : o.coordinator.roster.WellFormed
  distinct : Distinct o.coordinator
  packets : Sound tokenOfPackets o.coordinator.packetSight o.packets
  members : ∀ {handle member}, o.coordinator.roster.get? handle = some member →
    Sound (tokenOfMember handle) (o.coordinator.memberSight member) (o.members handle)
  reads : o.ReadsDeclined

/-- What holds at a poll. -/
structure Polling (o : Observed) : Prop extends Settled o where
  packetsFitted : o.coordinator.packetSight.Fitted
  membersFitted : ∀ {handle member}, o.coordinator.roster.get? handle = some member →
    (o.coordinator.memberSight member).Fitted

/-- What holds between a poll and the end of the work: sources that are still due are in
use. -/
structure Ready (due : Handle → Prop) (o : Observed) : Prop extends Settled o where
  packetsInUse : o.coordinator.packetSight.InUse
  membersInUse : ∀ {handle member}, due handle → o.coordinator.roster.get? handle = some member →
    (o.coordinator.memberSight member).InUse

theorem clearMarks_declined {operation : Operation} {was is : Bool} {before after : List Call}
    {past : List Mark} (hpast : .cleared false ∉ past)
    (h : was = true → is = false → endsDeclined operation before after = true) :
    .cleared false ∉ clearMarks operation was is before after past := by
  unfold clearMarks
  split
  next hclear =>
    simp only [Bool.and_eq_true, Bool.not_eq_true'] at hclear
    simp [h hclear.1 hclear.2, hpast]
  next => exact hpast

theorem ReadsDeclined.next {o : Observed} {c : Coordinator} (h : o.ReadsDeclined)
    (hreads : Reads o.coordinator c) : (o.next c).ReadsDeclined where
  listener := clearMarks_declined h.listener hreads.listener
  packets := clearMarks_declined h.packets hreads.packets
  members := by
    intro handle
    simp only [Observed.next, memberReadMarks]
    split
    next hbefore hafter =>
      exact clearMarks_declined (h.members handle) fun hset hclear =>
        hreads.members hbefore hafter hset hclear
    next => exact h.members handle

/-! ### Stages that leave write sides alone -/

/-- A member that stays is covered by whatever keeps a write side covered. -/
theorem Settled.member {o : Observed} {c : Coordinator} {handle : Handle} {member member' : Member}
    (h : o.Settled) (hbefore : o.coordinator.roster.get? handle = some member)
    (hafter : c.roster.get? handle = some member')
    (hstep : ∀ {past}, Sound (tokenOfMember handle) (o.coordinator.memberSight member) past →
      Sound (tokenOfMember handle) (c.memberSight member')
        ((o.coordinator.memberSight member).marks (.write member.stream.id) (c.memberSight member')
          past)) :
    Sound (tokenOfMember handle) (c.memberSight member') ((o.next c).members handle) := by
  simp only [next, memberMarks, hbefore, hafter]
  exact hstep (h.members hbefore)

/-- A member that has come is covered by its registration. -/
theorem member_first {o : Observed} {c : Coordinator} {handle : Handle} {member : Member}
    (hbefore : o.coordinator.roster.get? handle = none)
    (hafter : c.roster.get? handle = some member)
    (hregistered : (c.memberSight member).registered = some (tokenOfMember handle, member.watch)) :
    Sound (tokenOfMember handle) (c.memberSight member) ((o.next c).members handle) := by
  simp only [next, memberMarks, hbefore, hafter]
  exact .first hregistered

theorem Settled.kept {o : Observed} {c : Coordinator} (h : o.Settled)
    (hkept : WritesKept o.coordinator c) (hreads : Reads o.coordinator c) :
    (o.next c).Settled where
  roster := hkept.roster h.roster
  distinct := hkept.distinct h.distinct
  packets := h.packets.kept hkept.packets
  members := by
    intro handle member' hafter
    obtain ⟨member, hbefore, -, hsight⟩ := hkept.members hafter
    exact h.member hbefore hafter fun hsound => hsound.kept hsight
  reads := h.reads.next hreads

theorem Ready.kept {due : Handle → Prop} {o : Observed} {c : Coordinator} (h : o.Ready due)
    (hkept : WritesKept o.coordinator c) (hreads : Reads o.coordinator c) :
    (o.next c).Ready due where
  toSettled := h.toSettled.kept hkept hreads
  packetsInUse := hkept.packets.inUse h.packetsInUse
  membersInUse := by
    intro handle member' hdue hafter
    obtain ⟨member, hbefore, -, hsight⟩ := hkept.members hafter
    exact hsight.inUse (h.membersInUse hdue hbefore)

theorem Ready.mono {due due' : Handle → Prop} {o : Observed} (h : o.Ready due)
    (hdue : ∀ handle, due' handle → due handle) : o.Ready due' :=
  ⟨h.toSettled, h.packetsInUse, fun hmem => h.membersInUse (hdue _ hmem)⟩

theorem Settled.dismiss {o : Observed} (h : o.Settled) (handle : Handle) (departure : Departure) :
    (o.dismiss handle departure).Settled :=
  have hkept := kept_dismiss h.roster h.distinct handle departure
  h.kept hkept.toWritesKept hkept.reads

theorem Ready.dismiss {due : Handle → Prop} {o : Observed} (h : o.Ready due) (handle : Handle)
    (departure : Departure) : (o.dismiss handle departure).Ready due :=
  have hkept := kept_dismiss h.roster h.distinct handle departure
  Ready.kept h hkept.toWritesKept hkept.reads

/-! ### The work -/

/-- Whoever has just been accepted is not watched for writing yet. -/
theorem Ready.acceptOne {o : Observed} (h : o.Ready fun _ => True) (now : Instant) :
    (o.through fun c => c.acceptOne now).state.Ready fun _ => True := by
  have hattached := acceptOne_attached h.roster h.distinct now
  refine ⟨⟨hattached.roster, hattached.distinct, h.packets.kept hattached.packets, ?_,
    h.reads.next hattached.reads⟩, hattached.packets.inUse h.packetsInUse, ?_⟩
  · intro handle member' hafter
    rcases hattached.members hafter with ⟨member, hbefore, -, hsight⟩ | ⟨hnone, hread, hregistered⟩
    · exact h.member hbefore hafter fun hsound => hsound.kept hsight
    · exact member_first hnone hafter (hread ▸ hregistered)
  · intro handle member' _ hafter
    rcases hattached.members hafter with ⟨member, hbefore, -, hsight⟩ | ⟨-, hread, -⟩
    · exact hsight.inUse (h.membersInUse trivial hbefore)
    · intro hwatch
      rw [show (Coordinator.memberSight _ member').watch = .read from hread] at hwatch
      cases hwatch

/-- Writing to a member that is due leaves it covered, and the others as they are. -/
theorem Ready.wrote {handle : Handle} {rest : List Handle} {o : Observed} {c : Coordinator}
    (h : o.Ready (· ∈ handle :: rest)) (hnotin : handle ∉ rest)
    (hwrote : Wrote handle o.coordinator c) : (o.next c).Ready (· ∈ rest) where
  roster := hwrote.roster
  distinct := hwrote.distinct h.distinct
  packets := h.packets.kept hwrote.packets
  members := by
    intro other member' hafter
    obtain ⟨member, hbefore, -, hsight | ⟨rfl, hsight⟩⟩ := hwrote.members hafter
    · exact h.member hbefore hafter fun hsound => hsound.kept hsight
    · exact h.member hbefore hafter fun hsound =>
        hsound.written hsight (h.membersInUse List.mem_cons_self hbefore)
  reads := h.reads.next hwrote.reads
  packetsInUse := hwrote.packets.inUse h.packetsInUse
  membersInUse := by
    intro other member' hdue hafter
    obtain ⟨member, hbefore, -, hsight | ⟨rfl, -⟩⟩ := hwrote.members hafter
    · exact hsight.inUse (h.membersInUse (List.mem_cons_of_mem _ hdue) hbefore)
    · -- Whoever was written to may be watched with nothing left to write, but is done with.
      exact absurd hdue hnotin

theorem Ready.serveMember {handle : Handle} {rest : List Handle} {o : Observed}
    (h : o.Ready (· ∈ handle :: rest)) (hnotin : handle ∉ rest) (now : Instant) :
    (o.serveMember handle now).1.Ready (· ∈ rest) := by
  have hrest : ∀ other, other ∈ rest → other ∈ handle :: rest :=
    fun other hother => List.mem_cons_of_mem _ hother
  unfold Observed.serveMember
  split
  next => exact h.mono hrest
  next member hget =>
    split
    next =>
      obtain ⟨hkept, hreads⟩ := readMember_kept hget now
      split
      next heq =>
        rw [heq] at hkept hreads
        exact (Ready.kept h hkept hreads).mono hrest
      next heq =>
        rw [heq] at hkept hreads
        have hread := Ready.kept h hkept hreads
        exact hread.wrote hnotin (wrote_writeMember hread.roster handle)
    next => exact h.wrote hnotin (wrote_writeMember h.roster handle)

theorem Ready.serveOrDismiss {handle : Handle} {rest : List Handle} {o : Observed}
    (h : o.Ready (· ∈ handle :: rest)) (hnotin : handle ∉ rest) (now : Instant) :
    (serveOrDismiss now o handle).Ready (· ∈ rest) := by
  have hserved := h.serveMember hnotin now
  unfold Observed.serveOrDismiss
  split
  next heq => rw [heq] at hserved; exact hserved
  next heq => rw [heq] at hserved; exact hserved.dismiss handle _

/-- Serving whoever is due, each once. -/
theorem Ready.foldl_serve {due : List Handle} {o : Observed} (h : o.Ready (· ∈ due))
    (hnodup : due.Nodup) (now : Instant) :
    (due.foldl (Observed.serveOrDismiss now) o).Ready (· ∈ []) := by
  induction due generalizing o with
  | nil => exact h
  | cons handle rest ih =>
      rw [List.nodup_cons] at hnodup
      exact ih (h.serveOrDismiss hnodup.1 now) hnodup.2

theorem Ready.serveMembers {o : Observed} (h : o.Ready fun _ => True) (now : Instant) :
    (o.serveMembers now).Ready (· ∈ []) :=
  Ready.foldl_serve (h.mono fun _ _ => trivial) h.roster.members.nodup_keys now

theorem Ready.sendPacket {due : Handle → Prop} {o : Observed} (h : o.Ready due) :
    (o.through sendPacket).state.Settled := by
  by_cases hlatch : o.coordinator.packetLatch.writable = true
  · have hsent := sendPacket_sent hlatch
    refine ⟨?_, h.distinct.mono ?_ hsent.streams.more,
      h.packets.written hsent.packets h.packetsInUse, ?_,
      h.reads.next (.of_roster_eq hsent.roster hsent.listenerLatch hsent.readable)⟩
    · exact hsent.roster ▸ h.roster
    · exact fun hafter => ⟨_, hsent.roster ▸ hafter, rfl⟩
    · exact fun hafter => h.member (hsent.roster ▸ hafter) hafter fun hsound =>
        hsound.kept (hsent.members _)
  · have hstage : o.through Coordinator.sendPacket = .going (o.next o.coordinator) := by
      simp [through, Coordinator.sendPacket, hlatch, Stage.going]
    rw [hstage]
    have hkept := Kept.refl o.coordinator
    exact h.toSettled.kept hkept.toWritesKept hkept.reads

theorem Ready.servePackets {due : Handle → Prop} {o : Observed} (h : o.Ready due) :
    o.servePackets.state.Settled := by
  obtain ⟨hkept, hreads⟩ := receivePacket_kept o.coordinator
  exact Stage.andThen_of (P := Ready due) (Ready.kept h hkept hreads) (fun _ h => h.toSettled)
    fun _ h => h.sendPacket

theorem Settled.dismissIdle {o : Observed} (h : o.Settled) (now : Instant) :
    (o.dismissIdle now).Settled := by
  unfold Observed.dismissIdle
  generalize o.coordinator.roster.overdue now = overdue
  induction overdue generalizing o with
  | nil => exact h
  | cons handle overdue ih => exact ih (h.dismiss handle .idle)

theorem Settled.alike {o : Observed} {c : Coordinator} (h : o.Settled)
    (halike : Alike o.coordinator c) : (o.next c).Settled :=
  h.kept halike.kept.toWritesKept halike.kept.reads

theorem Ready.serve {o : Observed} (h : o.Ready fun _ => True) (lag : Duration) :
    (o.serve lag).state.Settled := by
  refine Stage.andThen_of (h.acceptOne _) (fun _ h => h.toSettled) ?_
  intro o h
  refine Stage.andThen_induction (h.serveMembers _).servePackets ?_
  intro o h
  have hlate := h.alike (c := o.coordinator.elapse lag) ⟨rfl, rfl, ⟨rfl, rfl⟩, rfl, rfl, rfl, rfl⟩
  exact (hlate.dismissIdle _).alike ⟨rfl, rfl, .refl _, rfl, rfl, rfl, rfl⟩

/-! ### Watching -/

theorem Settled.supply {o : Observed} (h : o.Settled) (supply : Supply) :
    (o.next { o.coordinator with host := o.coordinator.host.supply supply }).Settled := by
  have hcalls := o.coordinator.host.calls_supply supply
  have hsights : ∀ source, registration source (o.coordinator.host.supply supply).calls =
      registration source o.coordinator.host.calls := fun source => by rw [hcalls]
  refine ⟨h.roster, h.distinct.supply supply, h.packets.kept ⟨id, rfl, hsights _, id⟩, ?_,
    h.reads.next (.of_roster_eq rfl rfl rfl)⟩
  exact fun hafter => h.member hafter hafter fun hsound => hsound.kept ⟨id, rfl, hsights _, id⟩

theorem Settled.watchPackets {o : Observed} (h : o.Settled)
    (hgoing : (o.through watchPackets).failure = none) :
    let o' := (o.through Coordinator.watchPackets).state
    o'.Settled ∧ o'.coordinator.packetSight.Fitted := by
  obtain ⟨hrewatched, hroster, hmembers, hstreams⟩ := watchPackets_going hgoing
  refine ⟨⟨hroster ▸ h.roster, h.distinct.mono ?_ hstreams.more, h.packets.rewatched hrewatched, ?_,
    h.reads.next (watchPackets_reads o.coordinator)⟩, hrewatched.fitted⟩
  · exact fun hafter => ⟨_, hroster ▸ hafter, rfl⟩
  · exact fun hafter => h.member (hroster ▸ hafter) hafter fun hsound => hsound.kept (hmembers _)

/-- What holds while the members are watched one by one: those who are not watched for
just what they need are still to be watched, or to be dismissed. -/
structure Watching (todo : List Handle) (failed : List (Handle × IoKind)) (o : Observed) : Prop
    extends Settled o where
  packetsFitted : o.coordinator.packetSight.Fitted
  membersFitted : ∀ {handle member}, o.coordinator.roster.get? handle = some member →
    handle ∈ todo ∨ (∃ kind, (handle, kind) ∈ failed) ∨ (o.coordinator.memberSight member).Fitted

theorem Watching.watchMember {handle : Handle} {todo : List Handle}
    {failed : List (Handle × IoKind)} {o : Observed} (h : o.Watching (handle :: todo) failed) :
    (Observed.watchMember (o, failed) handle).1.Watching todo
      (Observed.watchMember (o, failed) handle).2 := by
  obtain ⟨hwatched, hsubset⟩ := watchMember_watched h.roster h.distinct failed handle
  -- Everybody but the one who is watched is the same as before.
  have hother : ∀ {other member'}, other ≠ handle →
      (Coordinator.watchMember (o.coordinator, failed) handle).1.roster.get? other = some member' →
      o.coordinator.roster.get? other = some member' :=
    fun hne hafter => (hwatched.others hne).symm.trans hafter
  refine ⟨⟨hwatched.roster, hwatched.distinct h.distinct, h.packets.kept hwatched.packets, ?_,
    h.reads.next hwatched.reads⟩, ?_, ?_⟩
  · intro other member' hafter
    by_cases hsame : other = handle
    · subst hsame
      obtain ⟨member, hbefore, -, -, hrewatched | ⟨-, hkept⟩⟩ := hwatched.member hafter
      · exact h.member hbefore hafter fun hsound => hsound.rewatched hrewatched
      · exact h.member hbefore hafter fun hsound => hsound.kept hkept
    · have hbefore := hother hsame hafter
      exact h.member hbefore hafter fun hsound =>
        hsound.kept (hwatched.othersKept hsame hbefore)
  · exact hwatched.packets.fitted (by simp [packetSight, hwatched.packetsOutput]) h.packetsFitted
  · intro other member' hafter
    by_cases hsame : other = handle
    · subst hsame
      obtain ⟨member, -, -, -, hrewatched | ⟨hrefused, -⟩⟩ := hwatched.member hafter
      · exact .inr (.inr hrewatched.fitted)
      · exact .inr (.inl hrefused)
    · have hbefore := hother hsame hafter
      rcases h.membersFitted hbefore with hmem | ⟨kind, hmem⟩ | hfitted
      · exact .inl ((List.mem_cons.1 hmem).resolve_left hsame)
      · exact .inr (.inl ⟨kind, hsubset hmem⟩)
      · exact .inr (.inr ((hwatched.othersKept hsame hbefore).fitted rfl hfitted))

/-- Dismissing someone whom the poller refused. -/
theorem Watching.dismiss {handle : Handle} {kind : IoKind} {failed : List (Handle × IoKind)}
    {o : Observed} (h : o.Watching [] ((handle, kind) :: failed)) (departure : Departure) :
    (o.dismiss handle departure).Watching [] failed := by
  have hkept := kept_dismiss h.roster h.distinct handle departure
  refine ⟨h.toSettled.dismiss handle departure, ?_, ?_⟩
  · refine hkept.packets.fitted ?_ h.packetsFitted
    simp [packetSight, outbox_dismiss]
  · intro other member hafter
    have hafter' : (o.coordinator.dismiss handle departure).roster.get? other = some member :=
      hafter
    rw [get?_dismiss h.roster] at hafter'
    split at hafter'
    next => cases hafter'
    next hne =>
      obtain ⟨before, hbefore, -, hsight⟩ := hkept.members hafter
      obtain rfl : member = before := Option.some.inj (hafter'.symm.trans hbefore)
      -- Whoever was refused and is still there is another one than the one dismissed.
      rcases h.membersFitted hbefore with hmem | ⟨kind', hmem⟩ | hfitted
      · cases hmem
      · rcases List.mem_cons.1 hmem with heq | hmem
        · exact absurd (Prod.mk.inj heq).1 hne
        · exact .inr (.inl ⟨kind', hmem⟩)
      · exact .inr (.inr (hsight.fitted rfl hfitted))

theorem Watching.foldl_watch {todo : List Handle} {failed : List (Handle × IoKind)} {o : Observed}
    (h : o.Watching todo failed) :
    let state := todo.foldl Observed.watchMember (o, failed)
    state.1.Watching [] state.2 := by
  induction todo generalizing o failed with
  | nil => exact h
  | cons handle todo ih => exact ih h.watchMember

theorem Watching.foldl_dismiss {failed : List (Handle × IoKind)} {o : Observed}
    (h : o.Watching [] failed) :
    (failed.foldl (fun o entry => o.dismiss entry.1 (.channel (.io entry.2))) o).Watching
      [] [] := by
  induction failed generalizing o with
  | nil => exact h
  | cons entry failed ih => exact ih (h.dismiss _)

/-- After everybody has been watched and those whom the poller refused are gone, the rest is
watched for just what it needs. -/
theorem Settled.watchMembers {o : Observed} (h : o.Settled)
    (hpackets : o.coordinator.packetSight.Fitted) : o.watchMembers.Polling := by
  -- At first everybody is still to be watched.
  have hstart : o.Watching o.coordinator.roster.order [] :=
    ⟨h, hpackets, fun hget => .inl (h.roster.members.mem_keys.2 ⟨_, hget⟩)⟩
  have hdone := hstart.foldl_watch.foldl_dismiss
  refine ⟨hdone.toSettled, hdone.packetsFitted, ?_⟩
  intro handle member hget
  rcases hdone.membersFitted hget with hmem | ⟨kind, hmem⟩ | hfitted
  · cases hmem
  · cases hmem
  · exact hfitted

theorem Settled.watch {o : Observed} {turn : Turn} (h : o.Settled)
    (hgoing : (o.watch turn).failure = none) : (o.watch turn).state.Polling := by
  obtain ⟨hpackets, -, hstate⟩ := Stage.going_of_andThen hgoing
  obtain ⟨hsettled, hfitted⟩ := (h.supply turn.supply).watchPackets hpackets
  unfold Observed.watch
  rw [hstate]
  exact hsettled.watchMembers hfitted

/-! ### The whole loop -/

theorem Polling.ready {o : Observed} (h : o.Polling) : o.Ready fun _ => True :=
  ⟨h.toSettled, h.packetsFitted.inUse, fun _ hget => (h.membersFitted hget).inUse⟩

theorem Ready.pollAndServe {o : Observed} (h : o.Ready fun _ => True) (turn : Turn) :
    (o.pollAndServe turn).state.Settled := by
  have hpoll := kept_poll o.coordinator (o.coordinator.waitTime o.coordinator.host.clock) turn
  unfold Observed.pollAndServe
  split
  next heq => rw [heq] at hpoll; exact h.toSettled.kept hpoll.toWritesKept hpoll.reads
  next heq => rw [heq] at hpoll; exact h.toSettled.kept hpoll.toWritesKept hpoll.reads
  next events host heq =>
    rw [heq] at hpoll
    have hlatched := hpoll.trans (.foldl kept_latch _ events)
    exact (Ready.kept h hlatched.toWritesKept hlatched.reads).serve turn.lag

theorem Settled.watch_reads {o : Observed} (h : o.Settled) (turn : Turn) :
    (o.watch turn).state.ReadsDeclined := by
  have hsupplied := h.supply turn.supply
  unfold Observed.watch Stage.andThen
  simp only
  split
  next hgoing =>
    obtain ⟨hsettled, hfitted⟩ := hsupplied.watchPackets hgoing
    exact (hsettled.watchMembers hfitted).reads
  next => exact hsupplied.reads.next (watchPackets_reads _)

/-- Not even an iteration that fails forgets that a source is readable too early. -/
theorem Settled.iterate_reads {o : Observed} (h : o.Settled) (turn : Turn) :
    (o.iterate turn).state.ReadsDeclined := by
  unfold Observed.iterate Stage.andThen
  split
  next hwatch => exact ((h.watch hwatch).ready.pollAndServe turn).reads
  next => exact h.watch_reads turn

theorem settled_first {config : CoordinatorConfig} {host : Host} {c : Coordinator}
    (horderly : host.Orderly) (h : Coordinator.start config host = .ok c) : (first c).Settled := by
  obtain ⟨hroster, -, hwatch, hcalls⟩ := start_ok h
  have hregistered : registration .packetSocket c.host.calls = some (tokenOfPackets, .read) := by
    rw [hcalls, registration_append]
    rfl
  refine ⟨hroster ▸ wellFormed_empty, .start horderly h, .first ?_, ?_,
    ⟨List.not_mem_nil, List.not_mem_nil, fun _ => List.not_mem_nil⟩⟩
  · rw [← hwatch] at hregistered
    exact hregistered
  · intro handle member hget
    simp [first, get?_start h] at hget

/-- The invariant holds at the head of the loop. -/
theorem Run.settled {config : CoordinatorConfig} {host : Host} {o : Observed}
    (horderly : host.Orderly) (h : Run config host o) : o.Settled := by
  induction h with
  | start h => exact settled_first horderly h
  | @iterate o turn _ hgoing ih =>
      obtain ⟨hwatch, -, hstate⟩ := Stage.going_of_andThen hgoing
      unfold Observed.iterate
      rw [hstate]
      exact (ih.watch hwatch).ready.pollAndServe turn

/-! ### Main result -/

/-- Let a coordinator start on a system whose connections in store are different streams.
When it polls with something to write to a member, or to the packet socket, and the
latch is clear, the poller watches the source for writing and owes a report. And by the
end of any iteration, even one that fails, no source was ever forgotten to be readable
before accepting from it, reading it or receiving from it would block. -/
theorem report_due_and_reads_declined {config : CoordinatorConfig} {host : Host} {o : Observed}
    (horderly : host.Orderly) (h : Run config host o) (turn : Turn) :
    ((o.watch turn).failure = none →
      let o' := (o.watch turn).state
      let c := o'.coordinator
      (∀ handle member, c.roster.get? handle = some member → member.hasOutput = true →
        member.latch.writable = false →
          registration (.stream member.stream.id) c.host.calls =
              some (tokenOfMember handle, .readWrite) ∧
            Awaits (o'.members handle)) ∧
      (c.outbox ≠ [] → c.packetLatch.writable = false →
        registration .packetSocket c.host.calls = some (tokenOfPackets, .readWrite) ∧
          Awaits o'.packets)) ∧
    let after := (o.iterate turn).state
    .cleared false ∉ after.listenerReads ∧ .cleared false ∉ after.packetReads ∧
      ∀ handle, .cleared false ∉ after.memberReads handle := by
  have hsettled := h.settled horderly
  have hreads := hsettled.iterate_reads turn
  refine ⟨?_, hreads.listener, hreads.packets, hreads.members⟩
  intro hgoing
  have hpolling := hsettled.watch hgoing
  refine ⟨?_, ?_⟩
  · intro handle member hget houtput hlatch
    have hwatch := (hpolling.membersFitted hget).trans (congrArg Interest.onDemand houtput)
    have hsound := hpolling.members hget
    exact ⟨hsound.registered.trans (by rw [hwatch]; rfl),
      hsound.awaits (by rw [hwatch]; rfl) hlatch⟩
  · intro houtput hlatch
    have hout : (o.watch turn).state.coordinator.packetSight.output = true := by
      simpa [packetSight] using houtput
    have hwatch := hpolling.packetsFitted.trans (congrArg Interest.onDemand hout)
    have hsound := hpolling.packets
    exact ⟨hsound.registered.trans (by rw [hwatch]; rfl),
      hsound.awaits (by rw [hwatch]; rfl) hlatch⟩

/-- A peer at 192.0.2.7 connects. -/
def arrivalTurn : Turn :=
  { supply := ⟨[.connection (.v4 ⟨.ofOctets 192 0 2 7, 40000⟩) .idle], [], [], [], [], [], []⟩
    advance := .zero
    events := [⟨tokenOfListener, ⟨true, false, false, false, false⟩⟩]
    pollFailure := none }

/-- The frame that announces 203.0.113.9:5000 and 10.0.0.2:6000. -/
def announcementFrame : Bytes :=
  [0x54, 0x45, 0x4e, 0x54, 0, 0, 0, 21, 4, 203, 0, 113, 9, 0x13, 0x88, 10, 0, 0, 2, 0x17, 0x70]

/-- The peer has announced itself. -/
def announcementTurn : Turn :=
  { arrivalTurn with
    supply := ⟨[], [(⟨0⟩, ⟨[.data announcementFrame], []⟩)], [], [], [], [], []⟩
    events := [⟨firstMemberToken, ⟨true, false, false, false, false⟩⟩] }

/-- Nothing happens. -/
def quietTurn : Turn := { arrivalTurn with supply := ⟨[], [], [], [], [], [], []⟩, events := [] }

/-- A peer connects and announces itself: at the next poll its list is queued, nothing is
known about the stream, and the poller owes a report. -/
theorem report_due_after_announcement :
    ∃ o : Observed, Run .default .idle o ∧ (o.watch quietTurn).failure = none ∧
      ((o.watch quietTurn).state.coordinator.roster.get? ⟨0⟩).any
          (fun member => member.hasOutput && !member.latch.writable) = true ∧
        Awaits ((o.watch quietTurn).state.members ⟨0⟩) := by
  have horderly : Host.idle.Orderly := ⟨by decide, by decide⟩
  have hstart := @Run.start .default .idle _ rfl
  have hrun := (hstart.iterate arrivalTurn (by decide +kernel)).iterate announcementTurn
    (by decide +kernel)
  have hdue := ((report_due_and_reads_declined horderly hrun quietTurn).1 (by decide +kernel)).1
  refine ⟨_, hrun, by decide +kernel, (and_iff_left_of_imp fun hwaits => ?_).2 (by decide +kernel)⟩
  obtain ⟨hsome, hmember⟩ := (Option.any_eq_true_iff_get _ _).1 hwaits
  obtain ⟨houtput, hlatch⟩ := Bool.and_eq_true_iff.1 hmember
  exact (hdue _ _ (Option.some_get hsome).symm houtput (by simpa using hlatch)).2

end Observed
end Coordinator
end Rendezvous
