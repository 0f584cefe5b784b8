import Rendezvous.Proofs.Coordinator.Receivable
import Rendezvous.Proofs.Coordinator.Tally
import Rendezvous.Proofs.Polling.Table

/-!
# Rendezvous.Proofs.Coordinator.Registrations

**The poller's table follows the roster.** What the poller should watch is read off a
coordinator's state: its two sockets, and every member under the token of its slot, for what is
noted in its record (`Coordinator.registrations`). The requests that a stage makes take the
poller's table from what it should be before the stage to what it should be after it
(`Mirrored`), unless the poller has failed to forget a source.

* Most stages make no request and call for none: `Unmoved.registrations_eq`, `Mirrored.quiet`.
* `mirrored_watchPackets`, `mirrored_watchMember`, `mirrored_acceptOne` and `mirrored_dismiss`
  are the stages that make requests. That a request concerns one member only is because no two
  members have one stream (`Distinct`), which every piece of work keeps (`Piece.distinct`).
* `Work.registered_eq`: after any work that follows a start the table is what the state calls for.
-/

namespace Rendezvous
namespace Roster

variable {roster roster' : Roster} {handle other : Handle} {member : Member}

/-! ### What a roster calls for -/

/-- How a member should be registered. -/
def registrationOf (roster : Roster) (handle : Handle) : Option Registration :=
  (roster.get? handle).map fun member =>
    ⟨.stream member.stream.id, tokenOfMember handle, member.watch⟩

/-- How all members should be registered, the oldest first. -/
def registrations (roster : Roster) : List Registration :=
  roster.order.filterMap roster.registrationOf

theorem registrationOf_of_get? (hget : roster.get? handle = some member) :
    roster.registrationOf handle =
      some ⟨.stream member.stream.id, tokenOfMember handle, member.watch⟩ := by
  rw [registrationOf, hget]
  rfl

theorem mem_registrations (h : roster.WellFormed) {held : Registration} :
    held ∈ roster.registrations ↔ ∃ handle member, roster.get? handle = some member ∧
      held = ⟨.stream member.stream.id, tokenOfMember handle, member.watch⟩ := by
  simp only [registrations, registrationOf, List.mem_filterMap, Option.map_eq_some_iff]
  constructor
  · rintro ⟨handle, -, member, hget, rfl⟩
    exact ⟨handle, member, hget, rfl⟩
  · rintro ⟨handle, member, hget, rfl⟩
    exact ⟨handle, (mem_order h).2 ⟨member, hget⟩, member, hget, rfl⟩

theorem source_of_mem_registrations {held : Registration} (h : held ∈ roster.registrations) :
    ∃ id, held.source = .stream id := by
  simp only [registrations, registrationOf, List.mem_filterMap, Option.map_eq_some_iff] at h
  obtain ⟨_, -, member, -, rfl⟩ := h
  exact ⟨member.stream.id, rfl⟩

theorem registrations_congr (horder : roster'.order = roster.order)
    (hsame : ∀ handle, roster'.registrationOf handle = roster.registrationOf handle) :
    roster'.registrations = roster.registrations := by
  rw [registrations, registrations, horder, funext hsame]

theorem registrations_detach (h : roster.WellFormed) (hget : roster.get? handle = some member)
    (hapart : ∀ {other member'}, roster.get? other = some member' →
      member'.stream.id = member.stream.id → other = handle) :
    (roster.detach handle).2.registrations =
      roster.registrations.filter fun held => held.source ≠ .stream member.stream.id := by
  rw [registrations, registrations, order_detach h, List.filterMap_filter, List.filter_filterMap]
  refine List.filterMap_congr fun other hmem => ?_
  obtain ⟨member', hget'⟩ := (mem_order h).1 hmem
  rw [registrationOf_of_get? hget']
  by_cases hsame : other = handle
  · subst hsame
    obtain rfl : member = member' := Option.some.inj (hget.symm.trans hget')
    simp [Option.filter]
  · have hstays : (roster.detach handle).2.get? other = some member' := by
      rw [get?_detach h, if_neg hsame, hget']
    have hid : member'.stream.id ≠ member.stream.id := fun hid => hsame (hapart hget' hid)
    simp [hsame, hid, registrationOf_of_get? hstays, Option.filter]

theorem registrations_rewatch (h : roster.WellFormed) (hget : roster.get? handle = some member)
    (hapart : ∀ {other member'}, roster.get? other = some member' →
      member'.stream.id = member.stream.id → other = handle) (wanted : Interest) :
    (roster.modify handle fun member => { member with watch := wanted }).registrations =
      roster.registrations.map fun held =>
        if held.source = .stream member.stream.id then
          ⟨.stream member.stream.id, tokenOfMember handle, wanted⟩
        else held := by
  rw [registrations, registrations, order_modify h, List.map_filterMap]
  refine List.filterMap_congr fun other hmem => ?_
  obtain ⟨member', hget'⟩ := (mem_order h).1 hmem
  rw [registrationOf_of_get? hget', registrationOf, get?_modify]
  by_cases hsame : other = handle
  · subst hsame
    obtain rfl : member = member' := Option.some.inj (hget.symm.trans hget')
    simp [hget]
  · have hid : member'.stream.id ≠ member.stream.id := fun hid => hsame (hapart hget' hid)
    simp [hsame, hid, hget']

theorem registrations_enroll (h : roster.WellFormed) (stream : FramedStream) (addr : SocketAddr)
    (timer : Timer) :
    (roster.enroll stream addr timer).val.2.registrations = roster.registrations ++
      [⟨.stream stream.id, tokenOfMember (roster.enroll stream addr timer).val.1, .read⟩] := by
  have hcongr : roster.order.filterMap (roster.enroll stream addr timer).val.2.registrationOf =
      roster.registrations := by
    refine List.filterMap_congr fun other hmem => ?_
    obtain ⟨member, hget⟩ := (mem_order h).1 hmem
    rw [registrationOf_of_get? hget,
      registrationOf_of_get? (get?_enroll_of_get? h hget stream addr timer)]
  rw [registrations, order_enroll h, List.filterMap_append, hcongr]
  simp [registrationOf, get?_enroll h, Member.fresh]

end Roster

namespace Coordinator

variable {a b c c' : Coordinator} {done : List Dispatch} {handle : Handle} {member : Member}
  {host : Host}

/-- What the poller should watch, and how: the two sockets and every member. -/
def registrations (c : Coordinator) : List Registration :=
  ⟨.listener, tokenOfListener, .read⟩ :: ⟨.packetSocket, tokenOfPackets, c.packetWatch⟩ ::
    c.roster.registrations

/-! ### Streams stay distinct -/

/-- Every piece of work leaves every stream with one holder. -/
theorem Piece.distinct (hpiece : Piece c c') (hwf : c.roster.WellFormed) (h : Distinct c) :
    Distinct c' := by
  rcases hpiece.flow hwf with hstill | ⟨now, rfl⟩ | ⟨handle, -, rfl⟩ | ⟨handle, e, -, rfl⟩
  · exact h.mono (fun hget => let ⟨member, hbefore, hstream, _⟩ := hstill.members hget
      ⟨member, hbefore, hstream⟩) hstill.streams
  · exact (acceptOne_attached hwf h now).distinct
  · exact (wrote_writeMember hwf handle).distinct h
  · have hwrote := wrote_writeMember hwf handle
    exact (kept_dismiss hwrote.roster (hwrote.distinct h) handle _).toWritesKept.distinct
      (hwrote.distinct h)

theorem Work.distinct (h : Work a done c) (ha : Consistent a) (hdistinct : Distinct a) :
    Distinct c :=
  h.consistent_induction ha hdistinct (fun hc hpiece h => hpiece.distinct hc.roster h)
    fun handle msg _ h => (kept_actOnControl _ handle msg).toWritesKept.distinct h

/-! ### Stages that make no request -/

/-- Who is attached over what connection, and watched for what, decides what the poller should
watch. -/
theorem Unmoved.registrations_eq (h : Unmoved c c')
    (hwatch : ∀ {handle member member'}, c.roster.get? handle = some member →
      c'.roster.get? handle = some member' → member'.watch = member.watch)
    (hpackets : c'.packetWatch = c.packetWatch) : c'.registrations = c.registrations := by
  have hsame (handle : Handle) :
      c'.roster.registrationOf handle = c.roster.registrationOf handle := by
    have hline := h.lineOf handle
    unfold Roster.registrationOf
    cases hbefore : c.roster.get? handle with
    | none =>
        cases hafter : c'.roster.get? handle with
        | none => rfl
        | some member' => simp [Roster.lineOf, hbefore, hafter] at hline
    | some member =>
        cases hafter : c'.roster.get? handle with
        | none => simp [Roster.lineOf, hbefore, hafter] at hline
        | some member' =>
            have hid : member'.stream.id = member.stream.id := by
              simpa [Roster.lineOf, hbefore, hafter] using hline
            simp [hid, hwatch hbefore hafter]
  rw [registrations, registrations, hpackets, Roster.registrations_congr h.order hsame]

theorem WritesKept.watch_eq (h : WritesKept c c') {member member' : Member}
    (hbefore : c.roster.get? handle = some member)
    (hafter : c'.roster.get? handle = some member') : member'.watch = member.watch := by
  obtain ⟨before, hget, -, hkept⟩ := h.members hafter
  obtain rfl : member = before := Option.some.inj (hbefore.symm.trans hget)
  exact hkept.watch

theorem WritesKept.registrations_eq (h : WritesKept c c') (hunmoved : Unmoved c c') :
    c'.registrations = c.registrations :=
  hunmoved.registrations_eq (fun hbefore hafter => h.watch_eq hbefore hafter) h.packets.watch

theorem writesKept_gather (hget : c.roster.get? handle = some member) (now : Instant) :
    WritesKept c (c.gather handle member now).1 := by
  have hrefilled := (kept_refilled hget).toWritesKept
  unfold gather
  split
  next =>
    have hcleared : Alike (c.refilled handle member)
        { c.refilled handle member with decoded := [] } :=
      ⟨rfl, rfl, .refl _, rfl, rfl, rfl, rfl⟩
    exact hrefilled.trans hcleared.kept.toWritesKept
  next =>
    exact hrefilled.trans
      (writesKept_modifyMember _ handle (fun _ => rfl) fun _ _ => ⟨rfl, id, rfl, id⟩)
  next count _ =>
    have hnoted := hrefilled.trans
      (alike_note _ .trace s!"Read {count} bytes from {member.addr}").kept.toWritesKept
    exact hnoted.trans
      (writesKept_modifyMember _ handle (fun _ => rfl) fun _ _ => ⟨rfl, id, rfl, id⟩)

theorem registrations_writeMember (h : Consistent c) (handle : Handle) :
    (c.writeMember handle).1.registrations = c.registrations := by
  have hwrote := wrote_writeMember h.roster handle
  refine (h.unmoved (calm_writeMember c handle)).registrations_eq (fun hbefore hafter => ?_)
    hwrote.packets.watch
  obtain ⟨member, hget, -, hkept | ⟨-, hwritten⟩⟩ := hwrote.members hafter
  · exact hkept.watch.trans (by rw [Option.some.inj (hget.symm.trans hbefore)]; rfl)
  · exact hwritten.watch.trans (by rw [Option.some.inj (hget.symm.trans hbefore)]; rfl)

theorem exchange_writeMember (c : Coordinator) (handle : Handle) :
    Exchange c.host (c.writeMember handle).1.host := by
  have hsettled (c : Coordinator) (written : FramedStream.Written) :
      (c.settleWrite handle written).host = written.host := (settleWrite_frame c handle written).2.1
  unfold writeMember
  split
  next => exact .refl _
  next member _ =>
    split
    next => exact .refl _
    next =>
      split
      next =>
        have hresumed := member.stream.exchange_resume c.host
        unfold continueWrite
        simp only
        split <;> rwa [hsettled]
      next =>
        unfold writeNext
        rcases c.roster.takeNext handle with ⟨_ | msg, roster⟩
        · exact .refl _
        · have htransmitted := member.stream.exchange_transmit msg c.scratch c.host
          simp only
          split
          · rwa [hsettled]
          · refine Exchange.trans ?_ (.of_calls_eq (alike_countSent _ _ _).calls)
            rwa [hsettled]

/-! ### The table in step with the state -/

/-- Unless a deregistering fails, the requests between two states take the poller's table from
what it should be before them to what it should be after them. -/
def Mirrored (c c' : Coordinator) : Prop :=
  ∃ new, c'.host.calls = c.host.calls ++ new ∧
    ((∀ call ∈ new, call.clings = false) →
      new.foldl Call.retable c.registrations = c'.registrations)

namespace Mirrored

theorem refl (c : Coordinator) : Mirrored c c := ⟨[], (List.append_nil _).symm, fun _ => rfl⟩

theorem trans (hab : Mirrored a b) (hbc : Mirrored b c) : Mirrored a c := by
  obtain ⟨first, hfirst, htable⟩ := hab
  obtain ⟨second, hsecond, htable'⟩ := hbc
  refine ⟨first ++ second, by rw [hsecond, hfirst, List.append_assoc], fun hclean => ?_⟩
  obtain ⟨hclean, hclean'⟩ := List.forall_mem_append.1 hclean
  rw [List.foldl_append, htable hclean, htable' hclean']

/-- Where no request is made, none must be called for. -/
theorem quiet (hsame : c'.registrations = c.registrations) (hexchange : Exchange c.host c'.host) :
    Mirrored c c' := by
  obtain ⟨new, hcalls, htraffic⟩ := hexchange
  exact ⟨new, hcalls, fun _ => (foldl_retable_of_isTraffic htraffic _).trans hsame.symm⟩

end Mirrored

theorem mirrored_watchPackets (c : Coordinator) : Mirrored c c.watchPackets.state := by
  unfold watchPackets
  simp only
  split
  next => exact .refl c
  next =>
    have hcalls := c.host.calls_reregister .packetSocket tokenOfPackets
      (.onDemand (!c.outbox.isEmpty))
    split
    next kind host heq =>
      rw [heq] at hcalls
      exact ⟨_, hcalls, fun _ => rfl⟩
    next host heq =>
      rw [heq] at hcalls
      refine ⟨_, hcalls, fun _ => ?_⟩
      have hmembers : c.roster.registrations.map (fun held =>
          if held.source = .packetSocket then
            ⟨.packetSocket, tokenOfPackets, .onDemand (!c.outbox.isEmpty)⟩
          else held) = c.roster.registrations := by
        refine (List.map_congr_left fun held hheld => if_neg ?_).trans (List.map_id _)
        obtain ⟨id, hsource⟩ := Roster.source_of_mem_registrations hheld
        simp [hsource]
      simp [Call.retable, registrations, hmembers]

theorem mirrored_watchMember (hwf : c.roster.WellFormed) (hdistinct : Distinct c)
    (failed : List (Handle × IoKind)) (handle : Handle) :
    Mirrored c (watchMember (c, failed) handle).1 := by
  unfold watchMember
  simp only
  split
  next => exact .refl c
  next member hget =>
    split
    next => exact .refl c
    next =>
      have hcalls := c.host.calls_reregister (.stream member.stream.id) (tokenOfMember handle)
        (.onDemand member.hasOutput)
      split
      next kind host heq =>
        rw [heq] at hcalls
        exact ⟨_, hcalls, fun _ => rfl⟩
      next host heq =>
        rw [heq] at hcalls
        refine ⟨_, hcalls, fun _ => ?_⟩
        have hmembers := Roster.registrations_rewatch hwf hget
          (fun hother hid => hdistinct.apart hother hget hid) (.onDemand member.hasOutput)
        simp [Call.retable, registrations, modifyMember, hmembers]

theorem mirrored_dismiss (hwf : c.roster.WellFormed) (hdistinct : Distinct c) (handle : Handle)
    (departure : Departure) : Mirrored c (c.dismiss handle departure) := by
  cases hget : c.roster.get? handle with
  | none =>
      rw [dismiss_of_absent hget]
      exact .refl c
  | some member =>
      obtain ⟨hroster, ⟨failure, hcalls⟩, -, -, -, hwatch, -⟩ := dismiss_frame hget departure
      refine ⟨_, hcalls.trans (List.append_assoc ..), fun hclean => ?_⟩
      -- The close that follows takes nothing off the table.
      cases failure with
      | some kind => cases hclean _ List.mem_cons_self
      | none =>
          have hmembers := Roster.registrations_detach hwf hget
            fun hother hid => hdistinct.apart hother hget hid
          simp [Call.retable, registrations, hroster, hwatch, hmembers]

/-- What comes of a connection that is accepted: it is registered under the token of its slot, or it
is off the roster again and closed when the poller refuses it. -/
theorem welcome_cases {id : StreamId} {addr : SocketAddr}
    (haccept : c.host.accept = (.ok (id, addr), host)) (now : Instant) :
    let entered := (c.roster.enroll (.ofStream id) addr ⟨now, c.config.idleTimeout⟩).val
    let c' := ({ c with host := host } : Coordinator).welcome id addr now
    c'.packetWatch = c.packetWatch ∧
      ((∃ kind, c'.roster = (entered.2.detach entered.1).2 ∧
          c'.host.calls = c.host.calls ++ [.accept (.ok id),
            .register (.stream id) (tokenOfMember entered.1) .read (some kind), .close id]) ∨
        (c'.roster = entered.2 ∧
          c'.host.calls = c.host.calls ++ [.accept (.ok id),
            .register (.stream id) (tokenOfMember entered.1) .read none])) := by
  obtain ⟨-, -, hcalls⟩ := accept_ok haccept
  unfold welcome
  rcases c.roster.enroll (.ofStream id) addr ⟨now, c.config.idleTimeout⟩ with
    ⟨⟨fresh, roster⟩, log⟩
  have hregister := (host.write log).calls_register (.stream id) (tokenOfMember fresh) .read
  have hbefore : (host.write log).calls = c.host.calls ++ [.accept (.ok id)] := hcalls
  rw [hbefore, List.append_assoc] at hregister
  simp only
  split
  next kind watched heq =>
    have hwatched : watched.calls = c.host.calls ++ _ := heq ▸ hregister
    refine ⟨rfl, .inl ⟨kind, rfl, ?_⟩⟩
    change watched.calls ++ [.close id] = _
    rw [hwatched, List.append_assoc]
    rfl
  next watched heq =>
    have hwatched : watched.calls = c.host.calls ++ _ := heq ▸ hregister
    exact ⟨rfl, .inr ⟨rfl, hwatched⟩⟩

theorem mirrored_welcome (hwf : c.roster.WellFormed) (hdistinct : Distinct c) {id : StreamId}
    {addr : SocketAddr} (haccept : c.host.accept = (.ok (id, addr), host)) (now : Instant) :
    Mirrored c (({ c with host := host } : Coordinator).welcome id addr now) := by
  obtain ⟨-, -, -, hattached⟩ := hdistinct.accept haccept
  have hget := fun handle member => @Roster.get?_of_enroll c.roster handle member hwf (.ofStream id)
    addr ⟨now, c.config.idleTimeout⟩
  have hfresh := Roster.get?_enroll hwf (.ofStream id) addr ⟨now, c.config.idleTimeout⟩
  have hwf' := hwf.enroll (.ofStream id) addr ⟨now, c.config.idleTimeout⟩
  have hentered := Roster.registrations_enroll hwf (.ofStream id) addr
    ⟨now, c.config.idleTimeout⟩
  obtain ⟨hwatch, ⟨kind, hroster, hcalls⟩ | ⟨hroster, hcalls⟩⟩ := welcome_cases haccept now
  · refine ⟨_, hcalls, fun _ => ?_⟩
    -- Nobody else has the stream of the one who is taken off again.
    have hothers : c.roster.registrations.filter (fun held => held.source ≠ .stream id) =
        c.roster.registrations := by
      refine List.filter_eq_self.2 fun held hheld => ?_
      obtain ⟨handle, member, hmember, rfl⟩ := (Roster.mem_registrations hwf).1 hheld
      simpa using (hattached hmember).1
    have hdetached := Roster.registrations_detach hwf' ((hfresh _).trans (if_pos rfl))
      fun {other member'} hafter hid =>
        (hget other member' hafter).elim And.left fun h => absurd hid (hattached h.2).1
    rw [← hroster, hentered, List.filter_append] at hdetached
    have hnewcomer := hdetached.trans (congrArg₂ _ hothers
      (List.filter_cons_of_neg (by simp [Member.fresh])))
    rw [List.filter_nil, List.append_nil] at hnewcomer
    simp only [registrations, hwatch, hnewcomer]
    rfl
  · refine ⟨_, hcalls, fun _ => ?_⟩
    simp only [registrations, hwatch, hroster, hentered]
    rfl

theorem mirrored_acceptOne (hwf : c.roster.WellFormed) (hdistinct : Distinct c) (now : Instant) :
    Mirrored c (c.acceptOne now).state := by
  have hfailed {kind : IoKind} {next : Host} (h : c.host.accept = (.error kind, next)) :
      Exchange c.host next := .of_call (accept_error h).2 rfl
  unfold acceptOne
  split
  next => exact .refl c
  next =>
    split
    next heq => exact mirrored_welcome hwf hdistinct heq now
    next heq => exact .quiet rfl (hfailed heq)
    next host _ heq =>
      have hexchange := hfailed heq
      simp only
      split <;> exact .quiet rfl hexchange

/-! ### Any work -/

theorem registrations_latch (h : Consistent c) (event : Event) :
    (c.latch event).registrations = c.registrations :=
  (kept_latch c event).toWritesKept.registrations_eq (h.unmoved (calm_latch c event))

theorem mirrored_actOnControl (h : Consistent c) (handle : Handle) (msg : Message) :
    Mirrored c (c.actOnControl handle msg) :=
  .quiet ((kept_actOnControl c handle msg).toWritesKept.registrations_eq
    (unmoved_actOnControl h handle msg)) (.of_calls_eq (calls_actOnControl c handle msg))

theorem exchange_receivePacket (c : Coordinator) : Exchange c.host c.receivePacket.state.host :=
  c.receivePacket_tally.1.mono fun call h => by cases call <;> first | rfl | cases h

theorem exchange_sendPacket (c : Coordinator) : Exchange c.host c.sendPacket.state.host :=
  c.sendPacket_tally.1.mono fun call h => by cases call <;> first | rfl | cases h

theorem registrations_sendPacket (c : Coordinator) :
    c.sendPacket.state.registrations = c.registrations := by
  by_cases hlatch : c.packetLatch.writable = true
  · have hsent := sendPacket_sent hlatch
    have hwatch : c.sendPacket.state.packetWatch = c.packetWatch := hsent.packets.watch
    rw [registrations, registrations, hsent.roster, hwatch]
  · simp [sendPacket, hlatch]

theorem Piece.mirrored (hpiece : Piece c c') (h : Consistent c) (hdistinct : Distinct c) :
    Mirrored c c' := by
  cases hpiece with
  | supply supply => exact .quiet rfl (.of_calls_eq (c.host.calls_supply supply))
  | watchPackets => exact mirrored_watchPackets c
  | watchMember failed handle => exact mirrored_watchMember h.roster hdistinct failed handle
  | poll timeout turn => exact .quiet rfl (.of_call (c.host.calls_poll timeout turn) rfl)
  | latch event =>
      have hcalls : (c.latch event).host.calls = c.host.calls := by
        unfold Coordinator.latch
        repeat' split
        all_goals rfl
      exact .quiet (registrations_latch h event) (.of_calls_eq hcalls)
  | accept now => exact mirrored_acceptOne h.roster hdistinct now
  | @read handle member now present _ =>
      refine .quiet ?_ ?_
      · exact (writesKept_gather present now).registrations_eq (unmoved_gather h present now)
      · exact member.stream.exchange_receive c.host |>.trans
          (.of_calls_eq (c.calls_gather handle member now))
  | @lose handle member e present _ =>
      have hrefilled : Mirrored c { c.refilled handle member with decoded := [] } := by
        refine .quiet ?_ ?_
        · exact (kept_refilled present).toWritesKept.registrations_eq (unmoved_refilled h present)
        · exact member.stream.exchange_receive c.host |>.trans
            (.of_calls_eq (c.calls_refilled handle member))
      have hdistinct' := (kept_refilled present).toWritesKept.distinct hdistinct
      exact hrefilled.trans (mirrored_dismiss (h.refilled present).clear.roster
        ⟨hdistinct'.store, hdistinct'.known, hdistinct'.attached, hdistinct'.apart⟩ handle _)
  | @write handle _ =>
      exact .quiet (registrations_writeMember h handle) (exchange_writeMember c handle)
  | @abort handle e _ =>
      have hwrote := wrote_writeMember h.roster handle
      exact (Mirrored.quiet (registrations_writeMember h handle)
        (exchange_writeMember c handle)).trans
          (mirrored_dismiss hwrote.roster (hwrote.distinct hdistinct) handle _)
  | dismiss handle departure => exact mirrored_dismiss h.roster hdistinct handle departure
  | receive =>
      refine .quiet ?_ ?_
      · exact (receivePacket_kept c).1.registrations_eq (h.unmoved (calm_receivePacket c))
      · exact exchange_receivePacket c
  | send => exact .quiet (registrations_sendPacket c) (exchange_sendPacket c)
  | elapse lag => exact .quiet rfl (.of_calls_eq rfl)
  | release level => exact .quiet rfl (.refl _)

theorem Work.mirrored (h : Work a done c) (ha : Consistent a) (hdistinct : Distinct a) :
    Mirrored a c := by
  have hboth : Distinct c ∧ Mirrored a c := by
    refine h.consistent_induction (motive := fun c => Distinct c ∧ Mirrored a c) ha
      ⟨hdistinct, .refl a⟩ ?_ ?_
    · intro c c' hc hpiece ⟨hd, hmirrored⟩
      exact ⟨hpiece.distinct hc.roster hd, hmirrored.trans (hpiece.mirrored hc hd)⟩
    · intro c handle msg hc ⟨hd, hmirrored⟩
      exact ⟨(kept_actOnControl c handle msg).toWritesKept.distinct hd,
        hmirrored.trans (mirrored_actOnControl hc handle msg)⟩
  exact hboth.2

/-! ### The table at any time -/

/-- The sockets are registered at the start. -/
theorem registered_start {config : CoordinatorConfig} (h : Coordinator.start config host = .ok c) :
    registered (host.callsSince c.host) = c.registrations := by
  obtain ⟨hroster, -, hwatch, hcalls⟩ := start_ok h
  rw [Host.callsSince_eq hcalls, registrations, hroster, hwatch]
  rfl

/-- **The poller watches what it should** after any work that follows a start, if it never failed
to forget a source. -/
theorem Work.registered_eq {config : CoordinatorConfig} (horderly : host.Orderly)
    (hstart : Coordinator.start config host = .ok a) (h : Work a done c)
    (hclean : ∀ call ∈ host.callsSince c.host, call.clings = false) :
    registered (host.callsSince c.host) = c.registrations := by
  obtain ⟨new, hcalls, htable⟩ := h.mirrored (consistent_start hstart) (.start horderly hstart)
  obtain ⟨-, -, -, hopened⟩ := start_ok hstart
  have hsince := Host.callsSince_eq ((hopened ▸ hcalls).trans (List.append_assoc ..))
  have hstarted := registered_start hstart
  rw [Host.callsSince_eq hopened] at hstarted
  rw [hsince] at hclean ⊢
  rw [registered_append, hstarted,
    htable fun call hcall => hclean call (List.mem_append_right _ hcall)]

end Coordinator
end Rendezvous
