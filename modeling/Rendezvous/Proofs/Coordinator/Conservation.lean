import Mathlib.Algebra.BigOperators.Group.List.Basic
import Rendezvous.Proofs.Channel.Strays
import Rendezvous.Proofs.Coordinator.Census
import Rendezvous.Proofs.Coordinator.WakeUp

/-!
# Rendezvous.Proofs.Coordinator.Conservation

**The counters say what has happened.** What a coordinator counts is held against its trace:
the connections that came and went, the announcements that were not ignored, and the garbage
in the bytes of every connection there has ever been.

The last is the hard one, since a connection may be lost in the very read that skips garbage.
`FramedBut` ties the counter to the bytes that have arrived on each connection, and says that
what a member's stream holds is what is left over of them, except for a member whose read has
just failed. `Framed.refilled` keeps it through a read, whether that fails or not, and
`FramedBut.frame` through everything in which no bytes come in. `counters_conserved` puts this together with the census of members.
-/

namespace Rendezvous
namespace Coordinator

variable {p : Handle → Prop} {a c c' : Coordinator} {handle : Handle} {member : Member}
  {start host : Host} {calls new : List Call}

/-! ### Members that stay -/

/-- Between two states nothing came in, and whoever is still attached has the same connection
and holds the same bytes. -/
structure Undisturbed (c c' : Coordinator) : Prop where
  roster : c'.roster.WellFormed
  members : ∀ {handle member'}, c'.roster.get? handle = some member' →
    ∃ member, c.roster.get? handle = some member ∧ member'.stream.id = member.stream.id ∧
      member'.stream.reassembly = member.stream.reassembly
  host : NothingIn c.host c'.host
  streams : MoreStreams c.host c'.host

theorem Undisturbed.trans {b : Coordinator} (hab : Undisturbed a b) (hbc : Undisturbed b c) :
    Undisturbed a c where
  roster := hbc.roster
  members := by
    intro handle last hlast
    obtain ⟨middle, hmiddle, hid, hheld⟩ := hbc.members hlast
    obtain ⟨first, hfirst, hid', hheld'⟩ := hab.members hmiddle
    exact ⟨first, hfirst, hid.trans hid', hheld.trans hheld'⟩
  host := hab.host.trans hbc.host
  streams := hab.streams.trans hbc.streams

theorem Step.undisturbed (h : Step p c c') (hwf : c.roster.WellFormed) : Undisturbed c c' := by
  cases h with
  | aside roster _ host streams _ =>
      refine ⟨roster ▸ hwf, fun {handle member'} hafter => ?_, host, streams⟩
      exact ⟨member', roster ▸ hafter, rfl, rfl⟩
  | adjust handle f queue same =>
      refine ⟨hwf.modify handle queue, fun hafter => ?_, .refl _, .refl _⟩
      obtain ⟨member, hbefore, ⟨-, rfl⟩ | ⟨rfl, rfl⟩⟩ := get?_of_modifyMember hafter
      · exact ⟨_, hbefore, rfl, rfl⟩
      · exact ⟨member, hbefore, (same member hbefore).stream, (same member hbefore).reassembly⟩
  | takeNext handle =>
      refine ⟨hwf.takeNext handle, fun hafter => ?_, .refl _, .refl _⟩
      obtain ⟨member, hbefore, ⟨-, rfl⟩ | ⟨-, rfl⟩⟩ := Roster.get?_of_takeNext hafter
      · exact ⟨_, hbefore, rfl, rfl⟩
      · exact ⟨member, hbefore, rfl, rfl⟩
  | detach handle =>
      refine ⟨hwf.detach handle, fun {other member'} hafter => ?_, .refl _, .refl _⟩
      exact ⟨member', (Roster.get?_of_detach hwf hafter).2, rfl, rfl⟩

theorem Calm.undisturbed (h : Calm p c c') (hwf : c.roster.WellFormed) : Undisturbed c c' :=
  h.induction (motive := Undisturbed c) ⟨hwf, fun hget => ⟨_, hget, rfl, rfl⟩, .refl _, .refl _⟩
    fun hstep hbefore => hbefore.trans (hstep.undisturbed hbefore.roster)

/-- Acting on a message disturbs nobody. -/
theorem undisturbed_actOnControl (hwf : c.roster.WellFormed) (handle : Handle) (msg : Message) :
    Undisturbed c (c.actOnControl handle msg) := by
  obtain ⟨-, hcalls, hstreams, -⟩ := c.actOnControl_frame handle msg
  refine ⟨?_, fun {other _} hafter => ?_, .of_calls_eq hcalls, hstreams.more⟩
  · rw [roster_actOnControl]
    split
    · exact hwf.introduce handle _
    · exact hwf
  · obtain ⟨entries, slots, hslots⟩ := c.get?_actOnControl handle msg other
    rw [hslots] at hafter
    obtain ⟨before, hbefore, rfl⟩ := Option.map_eq_some_iff.1 hafter
    exact ⟨before, hbefore, rfl, rfl⟩

/-! ### Garbage -/

/-- All garbage in the bytes of the connections that were accepted in a trace. -/
def allStrays (calls : List Call) : Nat :=
  ((connections calls).map fun id => strays streamCapacity (arrived id calls)).sum

/-- The garbage counted since the start is that of all connections. What the stream of a member
holds is what is left over of the bytes that have arrived on it, unless the member is spared, as
it is between a read that fails and its dismissal. -/
structure FramedBut (start : Host) (spared : Handle → Prop) (calls : List Call) (c : Coordinator) :
    Prop where
  trace : c.host.calls = start.calls ++ calls
  roster : c.roster.WellFormed
  distinct : Distinct c
  nodup : (connections calls).Nodup
  counted : c.counters.framingResyncs = UInt64.ofNat (allStrays calls)
  connected : ∀ {handle member}, c.roster.get? handle = some member →
    member.stream.id ∈ connections calls
  held : ∀ {handle member}, c.roster.get? handle = some member → ¬ spared handle →
    member.stream.CutUp (arrived member.stream.id calls)
  untouched : ∀ id, id ∈ c.host.waiting ∨ c.host.streams.length ≤ id.index →
    id ∉ connections calls ∧ arrived id calls = []

/-- The same with no member spared. -/
abbrev Framed (start : Host) (calls : List Call) (c : Coordinator) : Prop :=
  FramedBut start (fun _ => False) calls c

/-- Changing one term of a sum over a list without repetitions. -/
theorem sum_map_of_gain {ids : List StreamId} {id : StreamId} {before after : StreamId → Nat}
    {gain : Nat} (hnodup : ids.Nodup) (hmem : id ∈ ids) (hsame : after id = before id + gain)
    (hother : ∀ other, other ≠ id → after other = before other) :
    (ids.map after).sum = (ids.map before).sum + gain := by
  induction ids with
  | nil => cases hmem
  | cons head ids ih =>
      rw [List.nodup_cons] at hnodup
      rw [List.map_cons, List.sum_cons, List.map_cons, List.sum_cons]
      rcases List.mem_cons.1 hmem with rfl | hmem
      · have hrest : ids.map after = ids.map before := List.map_congr_left fun other hin =>
          hother other fun h => hnodup.1 (h ▸ hin)
        rw [hrest, hsame]
        omega
      · have hne : head ≠ id := fun h => hnodup.1 (h ▸ hmem)
        rw [ih hnodup.2 hmem, hother head hne]
        omega

/-- Calls in which nothing comes in. -/
theorem quiet_calls (h : ∀ call ∈ new, call.bringsIn = false) :
    connections new = [] ∧ ∀ id, arrived id new = [] :=
  ⟨List.filterMap_eq_nil_iff.2 fun call hcall => Call.connection?_eq_none (h call hcall),
    fun id => List.flatMap_eq_nil_iff.2 fun call hcall => Call.arrivedOn_eq_nil (h call hcall) id⟩

/-- The bytes that a read gets come in on its own stream. -/
theorem receive_calls {stream : FramedStream} {reads : List Call}
    (h : (stream.receive host).host.calls = host.calls ++ reads) :
    connections reads = [] ∧ arrived stream.id reads = stream.bytesIn host ∧
      ∀ other, other ≠ stream.id → arrived other reads = [] := by
  have hnone := connections_receive stream host
  have hgot (id : StreamId) := arrived_receive stream host id
  simp only [h, connections_append, arrived_append, List.append_right_eq_self,
    List.append_cancel_left_eq] at hnone hgot
  exact ⟨hnone, (hgot stream.id).trans (if_pos rfl), fun other hne =>
    (hgot other).trans (if_neg hne.symm)⟩

/-- A read brings in as much garbage as its stream skips. -/
theorem allStrays_receive {stream : FramedStream} {reads : List Call}
    (h : (stream.receive host).host.calls = host.calls ++ reads)
    (hnodup : (connections calls).Nodup) (hmem : stream.id ∈ connections calls)
    (hcut : stream.CutUp (arrived stream.id calls)) :
    allStrays (calls ++ reads) =
      allStrays calls + ((stream.receive host).stream.skipped - stream.skipped) := by
  obtain ⟨hconnections, hown, hothers⟩ := receive_calls h
  rw [allStrays, connections_append, hconnections, List.append_nil]
  refine sum_map_of_gain hnodup hmem ?_ fun other hne => ?_
  · rw [arrived_append, hown, hcut.skipped, FramedStream.receive_skipped hcut host,
      Nat.add_sub_cancel' (strays_le_append hcut.decode _)]
  · rw [arrived_append, hothers other hne, List.append_nil]

namespace FramedBut

variable {spared : Handle → Prop}

/-- Where nothing comes in, no garbage does. -/
theorem frame (h : FramedBut start spared calls c) (hund : Undisturbed c c')
    (hcount : c'.counters.framingResyncs = c.counters.framingResyncs) :
    ∃ new, FramedBut start spared (calls ++ new) c' := by
  obtain ⟨new, hnew, hquiet⟩ := hund.host
  obtain ⟨hconnections, harrived⟩ := quiet_calls hquiet
  have hconnections' : connections (calls ++ new) = connections calls := by
    rw [connections_append, hconnections, List.append_nil]
  have harrived' (id : StreamId) : arrived id (calls ++ new) = arrived id calls := by
    rw [arrived_append, harrived, List.append_nil]
  refine ⟨new, ?_, hund.roster, ?_, ?_, ?_, fun hafter => ?_, fun hafter hspared => ?_, ?_⟩
  · rw [hnew, h.trace, List.append_assoc]
  · exact h.distinct.mono (fun hafter =>
      let ⟨member, hbefore, hid, _⟩ := hund.members hafter
      ⟨member, hbefore, hid⟩) hund.streams
  · rw [hconnections']
    exact h.nodup
  · rw [hcount, h.counted, allStrays, allStrays, hconnections']
    simp only [harrived']
  · obtain ⟨member, hbefore, hid, -⟩ := hund.members hafter
    rw [hconnections', hid]
    exact h.connected hbefore
  · obtain ⟨member, hbefore, hid, hheld⟩ := hund.members hafter
    have hcut := h.held hbefore hspared
    rw [harrived', hid]
    exact ⟨hheld.trans hcut.held, hcut.decode⟩
  · intro id hid
    rw [hconnections', harrived']
    exact h.untouched id (hund.streams.beyond hid)

/-- Once everyone who was spared is gone, nobody is spared. -/
theorem whole (h : FramedBut start spared calls c)
    (hgone : ∀ handle, spared handle → c.roster.get? handle = none) : Framed start calls c where
  trace := h.trace
  roster := h.roster
  distinct := h.distinct
  nodup := h.nodup
  counted := h.counted
  connected := h.connected
  held := fun hget _ => h.held hget fun hspared =>
    Option.some_ne_none _ (hget.symm.trans (hgone _ hspared))
  untouched := h.untouched

end FramedBut

namespace Framed

/-- A connection begins with no bytes. -/
theorem enroll (h : Framed start calls c) {id : StreamId} {addr : SocketAddr}
    (haccept : c.host.accept = (.ok (id, addr), host)) (timer : Timer) :
    Framed start (calls ++ [.accept (.ok id)])
      { c with host := host, roster := (c.roster.enroll (.ofStream id) addr timer).val.2 } := by
  have hget := fun handle member => @Roster.get?_of_enroll c.roster handle member h.roster
    (.ofStream id) addr timer
  have hwaiting : id ∈ c.host.waiting := by simp [(accept_ok haccept).1]
  obtain ⟨hnew, hnothing⟩ := h.untouched id (.inl hwaiting)
  obtain ⟨-, hgone, hknown, -⟩ := h.distinct.accept haccept
  have hconnections : connections (calls ++ [.accept (.ok id)]) = connections calls ++ [id] :=
    connections_append ..
  have harrived (other : StreamId) :
      arrived other (calls ++ [.accept (.ok id)]) = arrived other calls := by
    rw [arrived_snoc]
    exact List.append_nil _
  refine ⟨?_, h.roster.enroll _ addr timer, ?_, ?_, ?_, fun {handle member} hafter => ?_,
    fun {handle member} hafter hspared => ?_, ?_⟩
  · rw [(accept_ok haccept).2.2, h.trace, List.append_assoc]
  · refine h.distinct.attach haccept (c.roster.enroll (.ofStream id) addr timer).val.1 ?_ (.refl _)
    intro handle member hafter
    rcases hget handle member hafter with ⟨hfresh, rfl⟩ | ⟨-, hbefore⟩
    · exact .inr ⟨hfresh, rfl⟩
    · exact .inl hbefore
  · rw [hconnections, List.nodup_append]
    refine ⟨h.nodup, List.nodup_singleton _, fun other hother last hlast hsame => hnew ?_⟩
    rwa [← List.mem_singleton.1 hlast, ← hsame]
  · -- The new connection adds nothing to the sum.
    have hnone : strays streamCapacity [] = 0 := by rw [strays]; rfl
    rw [allStrays, hconnections, List.map_append, List.sum_append]
    simp only [harrived]
    simpa [hnothing, hnone, allStrays] using h.counted
  · rw [hconnections]
    rcases hget handle member hafter with ⟨-, rfl⟩ | ⟨-, hbefore⟩
    · exact List.mem_append_right _ (List.mem_singleton_self id)
    · exact List.mem_append_left _ (h.connected hbefore)
  · rw [harrived]
    rcases hget handle member hafter with ⟨-, rfl⟩ | ⟨-, hbefore⟩
    · change (FramedStream.ofStream id).CutUp (arrived id calls)
      rw [hnothing]
      exact FramedStream.cutUp_ofStream id
    · exact h.held hbefore hspared
  · intro other hother
    rw [hconnections, harrived]
    obtain ⟨hother', hnothing'⟩ := h.untouched other ((moreStreams_accept haccept).beyond hother)
    refine ⟨fun hmem => ?_, hnothing'⟩
    rcases List.mem_append.1 hmem with hmem | hmem
    · exact hother' hmem
    · rw [List.mem_singleton.1 hmem] at hother
      exact hother.elim hgone fun hbeyond => absurd hknown (Nat.not_lt.2 hbeyond)

/-- The garbage that a read skips is counted, also when the read fails. -/
theorem refilled (h : Framed start calls c) (hget : c.roster.get? handle = some member) :
    ∃ new, FramedBut start
      (fun other => other = handle ∧ ∃ e, (member.stream.receive c.host).result = .error e)
      (calls ++ new) (c.refilled handle member) := by
  have hconnected := h.connected hget
  have hcut := h.held hget not_false
  obtain ⟨hroster, -, htrace, hsame, -⟩ := c.refilled_frame handle member
  obtain ⟨reads, hreads, -⟩ := member.stream.added_receive c.host
  obtain ⟨hconnections, hown, hothers⟩ := receive_calls hreads
  have hconnections' : connections (calls ++ reads) = connections calls := by
    rw [connections_append, hconnections, List.append_nil]
  have hothers' {other : StreamId} (hne : other ≠ member.stream.id) :
      arrived other (calls ++ reads) = arrived other calls := by
    rw [arrived_append, hothers other hne, List.append_nil]
  have hid := member.stream.id_receive c.host
  refine ⟨reads, ?_, ?_, ?_, ?_, ?_, fun hafter => ?_, fun {other _} hafter hspared => ?_, ?_⟩
  · rw [htrace, hreads, h.trace, List.append_assoc]
  · exact hroster ▸ h.roster.modify handle fun _ => rfl
  · refine h.distinct.mono (fun hafter => ?_) hsame.more
    rcases get?_of_refilled hafter with ⟨rfl, hstream⟩ | ⟨-, hbefore⟩
    · exact ⟨member, hget, hstream ▸ hid⟩
    · exact ⟨_, hbefore, rfl⟩
  · rw [hconnections']
    exact h.nodup
  · have htally : (c.refilled handle member).counters.framingResyncs = _ :=
      congrArg Tally.framingResyncs (c.refilled_tally handle member)
    rw [htally, allStrays_receive hreads h.nodup hconnected hcut, UInt64.ofNat_add, ← h.counted]
  · rw [hconnections']
    rcases get?_of_refilled hafter with ⟨-, hstream⟩ | ⟨-, hbefore⟩
    · rw [hstream, hid]
      exact hconnected
    · exact h.connected hbefore
  · rcases get?_of_refilled hafter with ⟨rfl, hstream⟩ | ⟨hne, hbefore⟩
    · -- A member that is not spared had a read that did not fail.
      have hfine (e : ChannelFailure) : (member.stream.receive c.host).result ≠ .error e :=
        fun hfailed => hspared ⟨rfl, e, hfailed⟩
      rw [hstream, hid, arrived_append, hown]
      exact FramedStream.receive_cutUp hcut hfine
    · rw [hothers' fun hsame => hne (h.distinct.apart hbefore hget hsame)]
      exact h.held hbefore not_false
  · intro other hunknown
    have hbefore := hsame.more.beyond hunknown
    rw [hconnections', hothers' (h.distinct.ne_of_untouched hget hbefore)]
    exact h.untouched other hbefore

end Framed

/-! ### The loop -/

/-- Nothing but a read skips garbage. -/
theorem resyncs_acceptOne (hwf : c.roster.WellFormed) (now : Instant) :
    (c.acceptOne now).state.counters.framingResyncs = c.counters.framingResyncs := by
  rcases acceptOne_tally hwf now with hplain | ⟨_, _, ⟨_, htally, -⟩ | ⟨htally, -⟩⟩
  · exact congrArg Tally.framingResyncs hplain.tally
  · exact congrArg Tally.framingResyncs htally
  · exact congrArg Tally.framingResyncs htally

theorem resyncs_dismiss (c : Coordinator) (handle : Handle) (departure : Departure) :
    (c.dismiss handle departure).counters.framingResyncs = c.counters.framingResyncs := by
  cases hget : c.roster.get? handle with
  | none => rw [dismiss_of_absent hget]
  | some member => exact congrArg Tally.framingResyncs (dismiss_tally hget departure).1

namespace Framed

theorem calm (h : Framed start calls c) (hcalm : Calm anyone c c')
    (hcount : c'.counters.framingResyncs = c.counters.framingResyncs) :
    ∃ new, Framed start (calls ++ new) c' :=
  h.frame (hcalm.undisturbed h.roster) hcount

theorem plain (h : Framed start calls c) (hcalm : Calm anyone c c') (hplain : Plain c c') :
    ∃ new, Framed start (calls ++ new) c' :=
  h.calm hcalm (congrArg Tally.framingResyncs hplain.tally)

theorem acceptOne (h : Framed start calls c) (now : Instant) :
    ∃ new, Framed start (calls ++ new) (c.acceptOne now).state := by
  have hcount := resyncs_acceptOne h.roster now
  rcases acceptOne_cases (p := anyone) c now fun _ _ _ => trivial with
    hcalm | ⟨id, addr, host, haccept, -, hcalm⟩
  · exact h.calm hcalm hcount
  · obtain ⟨new, hnew⟩ := (h.enroll haccept ⟨now, c.config.idleTimeout⟩).calm hcalm hcount
    exact ⟨_, List.append_assoc calls _ new ▸ hnew⟩

/-- Every piece of work keeps the count of garbage. -/
theorem piece (h : Framed start calls c) (hpiece : Piece c c') :
    ∃ new, Framed start (calls ++ new) c' := by
  cases hpiece with
  | supply supply => exact h.plain (calm_supply c supply) (plain_supply c supply)
  | watchPackets => exact h.plain (calm_watchPackets c) (plain_watchPackets c)
  | watchMember failed handle =>
      exact h.plain (calm_watchMember c failed handle) (plain_watchMember c failed handle)
  | poll timeout turn => exact h.plain (calm_poll c timeout turn) (plain_poll c timeout turn)
  | latch event => exact h.plain (calm_latch c event) (plain_latch c event)
  | accept now => exact h.acceptOne now
  | @read handle member now present fine =>
      obtain ⟨new, hread⟩ := h.refilled present
      have hwhole : Framed start (calls ++ new) (c.refilled handle member) := by
        refine hread.whole ?_
        rintro other ⟨-, e, hfailed⟩
        exact absurd hfailed (fine e)
      rcases gather_cases (p := nobody) c handle member now with ⟨e, hfailed, -⟩ | ⟨-, -, hcalm⟩
      · exact absurd hfailed (fine e)
      · obtain ⟨roster, members, host, streams⟩ := hcalm.undisturbed hread.roster
        have hund : Undisturbed (c.refilled handle member)
            { (c.gather handle member now).1 with decoded := [] } :=
          ⟨roster, members, host, streams⟩
        obtain ⟨more, hmore⟩ := hwhole.frame hund
          (congrArg Tally.framingResyncs (c.gather_tally handle member now).1)
        exact ⟨_, List.append_assoc calls new more ▸ hmore⟩
  | @lose handle member e present _ =>
      -- The read has counted its garbage before the member that it spares is dismissed.
      obtain ⟨new, hread⟩ := h.refilled present
      have hcalm : Calm anyone { c.refilled handle member with decoded := [] }
          (dismiss { c.refilled handle member with decoded := [] } handle (.channel e)) :=
        calm_dismiss _ trivial (.channel e)
      have hund := hcalm.undisturbed hread.roster
      obtain ⟨more, hmore⟩ := hread.frame ⟨hund.roster, hund.members, hund.host, hund.streams⟩
        (resyncs_dismiss _ handle (.channel e))
      refine ⟨_, List.append_assoc calls new more ▸ hmore.whole ?_⟩
      rintro other ⟨rfl, -⟩
      exact (get?_dismiss (c := { c.refilled other member with decoded := [] }) hread.roster other
        other (.channel e)).trans (if_pos rfl)
  | write => exact h.plain (calm_writeMember c _) (plain_writeMember c _)
  | abort =>
      obtain ⟨new, hnew⟩ := h.plain (calm_writeMember (p := anyone) c _) (plain_writeMember c _)
      obtain ⟨more, hmore⟩ := hnew.calm (calm_dismiss (p := anyone) _ trivial _)
        (resyncs_dismiss _ _ _)
      exact ⟨_, List.append_assoc calls new more ▸ hmore⟩
  | dismiss handle departure =>
      exact h.calm (calm_dismiss c trivial departure) (resyncs_dismiss c handle departure)
  | receive =>
      obtain ⟨-, got, -, htally⟩ := c.receivePacket_tally
      exact h.calm (calm_receivePacket c) (congrArg Tally.framingResyncs htally)
  | send =>
      refine h.calm (calm_sendPacket c) ?_
      rcases c.sendPacket_tally.2 with ⟨-, htally⟩ | ⟨_, _, _, -, -, htally⟩
      · exact congrArg Tally.framingResyncs htally
      · exact congrArg Tally.framingResyncs htally
  | elapse lag => exact h.plain (calm_elapse c lag) (.silent rfl rfl)
  | release level => exact h.plain (.silent rfl rfl rfl (.refl _) rfl) (.silent rfl rfl)

theorem act (h : Framed start calls c) (handle : Handle) (msg : Message) :
    ∃ new, Framed start (calls ++ new) (c.actOnControl handle msg) :=
  h.frame (undisturbed_actOnControl h.roster handle msg)
    (congrArg Tally.framingResyncs (actOnControl_tally h.roster handle msg))

end Framed

/-- The calls that open and register the sockets. -/
def openingCalls (config : CoordinatorConfig) : List Call :=
  [.bindTcp config.controlAddr, .register .listener tokenOfListener .read none,
    .bindUdp config.stunAddr, .register .packetSocket tokenOfPackets .read none]

theorem framed_start {config : CoordinatorConfig} (horderly : host.Orderly)
    (h : Coordinator.start config host = .ok c) : Framed host (openingCalls config) c := by
  obtain ⟨hroster, -, -, hcalls⟩ := start_ok h
  refine ⟨hcalls, hroster ▸ Roster.wellFormed_empty, .start horderly h, List.nodup_nil,
    congrArg Tally.framingResyncs (tally_start h), fun hget => ?_, fun hget => ?_,
    fun id _ => ⟨List.not_mem_nil, rfl⟩⟩
  all_goals simp [get?_start h] at hget

theorem Work.framed {done : List Dispatch} (h : Work a done c) (ha : Framed start calls a) :
    ∃ new, Framed start (calls ++ new) c := by
  refine h.induction (motive := fun c => ∃ new, Framed start (calls ++ new) c)
    ⟨[], (List.append_nil calls).symm ▸ ha⟩ ?_ ?_
  · rintro c c' hpiece ⟨new, hc⟩
    obtain ⟨more, hc'⟩ := hc.piece hpiece
    exact ⟨new ++ more, List.append_assoc calls new more ▸ hc'⟩
  · rintro c handle msg ⟨new, hc⟩
    obtain ⟨more, hc'⟩ := hc.act handle msg
    exact ⟨new ++ more, List.append_assoc calls new more ▸ hc'⟩

/-! ### Announcements -/

/-- The announcements that were not ignored, with how many others were told of each. -/
def announced (done : List Dispatch) : List Nat := done.filterMap Dispatch.told

/-- Nothing but acting on a message counts an announcement. -/
theorem followed_announces :
    Followed fun c c' => c'.counters.announces = c.counters.announces :=
  followed_of_view Tally.announces (fun _ _ _ _ _ => rfl) (fun _ _ => rfl) fun _ _ _ => rfl

/-- Every announcement that is not ignored is counted. -/
theorem Work.announces {done : List Dispatch} (h : Work a done c) (ha : Consistent a) :
    c.counters.announces = a.counters.announces + UInt64.ofNat (announced done).length := by
  induction h with
  | none => exact (UInt64.add_zero _).symm
  | piece before piece ih =>
      exact (piece.follows followed_announces (before.consistent ha)).trans ih
  | act before handle msg ih =>
      have hacted := congrArg Tally.announces
        (actOnControl_tally (before.consistent ha).roster handle msg)
      have hlast (d : Dispatch) : announced [d] = d.told.toList := by
        rw [announced]
        cases htold : d.told <;> simp [htold]
      rw [announced, List.filterMap_append, List.length_append, UInt64.ofNat_add,
        ← UInt64.add_assoc]
      refine Eq.trans hacted ?_
      rw [← announced, ← announced, hlast, ← ih]

/-! ### Whole runs -/

/-- What the counters say of a run, with the calls made in it and the messages acted on. -/
structure Conserved (calls : List Call) (done : List Dispatch) (c : Coordinator) : Prop where
  /-- The gauge is the number of members. -/
  activePeers : c.counters.activePeers = UInt64.ofNat c.roster.size
  /-- Who was counted in and not counted out is a member. -/
  members : c.counters.accepted - c.counters.disconnects = UInt64.ofNat c.roster.size
  /-- Counted in are the connections that the poller came to watch. -/
  accepted : c.counters.accepted = UInt64.ofNat (attachments calls)
  /-- Counted out are those that it was told to forget. -/
  disconnects : c.counters.disconnects = UInt64.ofNat (detachments calls)
  /-- Any other connection that was accepted was refused by the poller, and counts in
  neither. -/
  connections : (connections calls).length = attachments calls + rejections calls
  /-- Counted are the announcements that were not ignored. -/
  announces : c.counters.announces = UInt64.ofNat (announced done).length
  /-- Counted is the garbage in the bytes of every connection that was ever accepted. -/
  framingResyncs : c.counters.framingResyncs = UInt64.ofNat (allStrays calls)

theorem Work.conserved {config : CoordinatorConfig} {done : List Dispatch}
    (h : Work a done c) (horderly : host.Orderly)
    (hstart : Coordinator.start config host = .ok a) :
    ∃ calls, c.host.calls = host.calls ++ calls ∧ Conserved calls done c := by
  have hconsistent := consistent_start hstart
  have htally := tally_start hstart
  have hzero : a.roster.size = 0 := congrArg Tally.members htally
  obtain ⟨new, hframed⟩ := h.framed (framed_start horderly hstart)
  obtain ⟨new', hcalls, hconnections, hmembers, haccepted, hdisconnects, hgauge⟩ :=
    h.census hconsistent
  obtain rfl : new' = new := by
    have htrace := hcalls.symm.trans hframed.trace
    rw [(framed_start horderly hstart).trace, List.append_assoc] at htrace
    exact List.append_cancel_left (List.append_cancel_left htrace)
  have hin : c.counters.accepted = UInt64.ofNat (attachments new') := by
    rw [haccepted, show a.counters.accepted = 0 from congrArg Tally.accepted htally,
      UInt64.zero_add]
  have hout : c.counters.disconnects = UInt64.ofNat (detachments new') := by
    rw [hdisconnects, show a.counters.disconnects = 0 from congrArg Tally.disconnects htally,
      UInt64.zero_add]
  rw [hzero, Nat.zero_add] at hmembers
  -- Opening the sockets concerns no connection.
  refine ⟨openingCalls config ++ new', hframed.trace, ?_⟩
  exact {
    activePeers := hgauge ((congrArg Tally.activePeers htally).trans (by rw [hzero]; rfl))
    members := by rw [hin, hout, ← hmembers, UInt64.ofNat_add, UInt64.add_sub_cancel]
    accepted := hin.trans (by rw [attachments_append]; exact congrArg _ (Nat.zero_add _).symm)
    disconnects := hout.trans (by rw [detachments_append]; exact congrArg _ (Nat.zero_add _).symm)
    connections := by
      rw [connections_append, attachments_append, rejections_append]
      exact hconnections.trans (congrArg₂ _ (Nat.zero_add _).symm (Nat.zero_add _).symm)
    announces := by
      rw [h.announces hconsistent, show a.counters.announces = 0 from
        congrArg Tally.announces htally, UInt64.zero_add]
    framingResyncs := hframed.counted }

/-- **The counters are conserved** at every loop head, and still after an iteration that
fails. -/
theorem counters_conserved {config : CoordinatorConfig} {done : List Dispatch}
    (horderly : host.Orderly) (h : Worked config host c done) :
    (∃ calls, c.host.calls = host.calls ++ calls ∧ Conserved calls done c) ∧
      ∀ turn, ∃ calls, (c.iterate turn).state.host.calls = host.calls ++ calls ∧
        Conserved calls (done ++ c.dispatches turn) (c.iterate turn).state := by
  obtain ⟨first, hstart, hwork⟩ := h.exists_work
  exact ⟨hwork.conserved horderly hstart, fun turn =>
    (hwork.trans (work_iterate c turn)).conserved horderly hstart⟩

/-- A peer connects, and the poller refuses to watch the connection. -/
def refusedTurn : Turn :=
  { Observed.arrivalTurn with
    supply := { Observed.arrivalTurn.supply with registrations := [some .other] } }

/-- One peer announces itself behind three bytes of garbage. Another sends two bytes of
garbage and a frame of no known kind. -/
def garbageTurn : Turn :=
  { Observed.quietTurn with
    supply := ⟨[], [(⟨0⟩, ⟨[.data ([1, 2, 3] ++ Observed.announcementFrame)], []⟩),
      (⟨2⟩, ⟨[.data [8, 8, 0x54, 0x45, 0x4e, 0x54, 0, 0, 0, 9, 99]], []⟩)], [], [], [], [], []⟩
    events := [⟨firstMemberToken, ⟨true, false, false, false, false⟩⟩,
      ⟨firstMemberToken + 1, ⟨true, false, false, false, false⟩⟩] }

/-- Of three connections one is refused, and one is lost in the read that skips its garbage. -/
theorem counters_after_loss :
    ∃ c done calls, Worked .default .idle c done ∧ c.host.calls = Host.idle.calls ++ calls ∧
      Conserved calls done c ∧ (connections calls).length = 3 ∧ rejections calls = 1 ∧
        c.roster.size = 1 ∧ c.counters.accepted = 2 ∧ c.counters.disconnects = 1 ∧
          announced done = [0] ∧ allStrays calls = 5 := by
  have horderly : Host.idle.Orderly := ⟨by decide, by decide⟩
  have hstart := @Worked.start .default .idle _ rfl
  have hconnected := ((hstart.iterate Observed.arrivalTurn (by decide +kernel)).iterate refusedTurn
    (by decide +kernel)).iterate Observed.arrivalTurn (by decide +kernel)
  have hrun := hconnected.iterate garbageTurn (by decide +kernel)
  obtain ⟨calls, hcalls, hconserved⟩ := (counters_conserved horderly hrun).1
  obtain rfl : _ = calls := hcalls
  refine ⟨_, _, _, hrun, rfl, hconserved, by decide +kernel, by decide +kernel, by decide +kernel,
    by decide +kernel, by decide +kernel, by decide +kernel, ?_⟩
  decide +kernel

end Coordinator
end Rendezvous
