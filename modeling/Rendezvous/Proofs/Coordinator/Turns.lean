import Rendezvous.Proofs.Channel.Faults
import Rendezvous.Proofs.Coordinator.Severance

/-!
# Rendezvous.Proofs.Coordinator.Turns

**Members take their turns undisturbed.** An iteration serves the members that a snapshot of
the roster names, while members are dismissed and handles carry no generation. Serving a
member takes nobody off the roster (`Unmoved`) and does nothing to the others but queue
messages for them (`Bystanding`); it fails when its connection comes to an end or garbles a
frame (`serveMember_failed_iff`), and then that member is severed (`Served`). Nobody is
attached in between, so whoever a handle names in the snapshot it still names when its turn
comes (`Turns`).
-/

namespace Rendezvous
namespace Coordinator

variable {p : Handle → Prop} {a b c c' : Coordinator} {handle other : Handle}
  {member : Member}

/-- Calls are only added to the trace. -/
theorem Calm.calls (h : Calm p c c') : c.host.calls <+: c'.host.calls := by
  refine h.induction (motive := fun b => c.host.calls <+: b.host.calls) List.prefix_rfl
    fun hstep hbefore => ?_
  cases hstep with
  | aside _ _ host _ _ =>
      obtain ⟨new, hnew, -⟩ := host
      exact hbefore.trans (hnew ▸ List.prefix_append ..)
  | _ => exact hbefore

/-! ### Nobody comes or goes -/

/-- The same members are attached, in the same order and over the same connections. -/
structure Unmoved (c c' : Coordinator) : Prop where
  order : c'.roster.order = c.roster.order
  lineOf : ∀ handle, c'.roster.lineOf handle = c.roster.lineOf handle

namespace Unmoved

theorem refl (c : Coordinator) : Unmoved c c := ⟨rfl, fun _ => rfl⟩

theorem trans (hab : Unmoved a b) (hbc : Unmoved b c) : Unmoved a c :=
  ⟨hbc.order.trans hab.order, fun handle => (hbc.lineOf handle).trans (hab.lineOf handle)⟩

theorem of_roster_eq (h : c'.roster = c.roster) : Unmoved c c' :=
  ⟨by rw [h], fun _ => by rw [h]⟩

end Unmoved

/-- Steps in which nobody leaves. -/
theorem Consistent.unmoved (h : Consistent c) (hcalm : Calm nobody c c') : Unmoved c c' := by
  have hboth : Consistent c' ∧ Unmoved c c' := by
    refine hcalm.induction (motive := fun b => Consistent b ∧ Unmoved c b) ⟨h, .refl c⟩
      fun {a b} hstep hbefore => ⟨hbefore.1.step hstep, hbefore.2.trans ?_⟩
    have hwf := hbefore.1.roster
    cases hstep with
    | aside roster _ _ _ _ => exact .of_roster_eq roster
    | adjust handle f _ same =>
        exact ⟨Roster.order_modify hwf handle f,
          Roster.lineOf_modify fun member hget => (same member hget).stream⟩
    | takeNext handle =>
        exact ⟨Roster.order_takeNext hwf handle, Roster.lineOf_takeNext a.roster handle⟩
    | detach _ leaves => exact leaves.elim
  exact hboth.2

theorem unmoved_refilled (h : Consistent c) (hget : c.roster.get? handle = some member) :
    Unmoved c (c.refilled handle member) := by
  have hroster := (c.refilled_frame handle member).1
  refine ⟨?_, fun other => ?_⟩
  · rw [hroster, Roster.order_modify h.roster]
  · rw [hroster, Roster.lineOf_modify fun before hbefore => ?_]
    obtain rfl := Option.some.inj (hget.symm.trans hbefore)
    exact member.stream.id_receive c.host

theorem unmoved_gather (h : Consistent c) (hget : c.roster.get? handle = some member)
    (now : Instant) : Unmoved c (c.gather handle member now).1 := by
  have hrefilled := unmoved_refilled h hget
  rcases gather_cases (p := nobody) c handle member now with ⟨e, -, hgather⟩ | ⟨-, -, hcalm⟩
  · rw [hgather]
    exact hrefilled.trans (.of_roster_eq rfl)
  · exact hrefilled.trans ((h.refilled hget).unmoved hcalm)

theorem unmoved_actOnControl (h : Consistent c) (handle : Handle) (msg : Message) :
    Unmoved c (c.actOnControl handle msg) := by
  have hroster := c.roster_actOnControl handle msg
  cases msg with
  | connect entry =>
      refine ⟨?_, fun other => ?_⟩
      · rw [hroster]
        exact Roster.order_introduce h.roster handle entry
      · rw [hroster]
        exact Roster.lineOf_introduce c.roster handle entry other
  | _ => exact .of_roster_eq hroster

theorem unmoved_actOnDecoded (h : Consistent c) (handle : Handle) :
    Unmoved c (c.actOnDecoded handle) := by
  have hboth : Consistent (c.actOnDecoded handle) ∧ Unmoved c (c.actOnDecoded handle) :=
    List.foldlRecOn (motive := fun b => Consistent b ∧ Unmoved c b) _ _
      ⟨h.clear, .of_roster_eq rfl⟩ fun b hbefore msg _ =>
        ⟨hbefore.1.actOnControl handle msg,
          hbefore.2.trans (unmoved_actOnControl hbefore.1 handle msg)⟩
  exact hboth.2

theorem unmoved_readMember (h : Consistent c) (hget : c.roster.get? handle = some member)
    (now : Instant) : Unmoved c (c.readMember handle member now).1 := by
  rw [readMember_eq_gather]
  exact (unmoved_gather h hget now).trans (unmoved_actOnDecoded (h.gather hget now) handle)

theorem unmoved_serveMember (h : Consistent c) (handle : Handle) (now : Instant) :
    Unmoved c (c.serveMember handle now).1 := by
  unfold serveMember
  cases hget : c.roster.get? handle with
  | none => exact .refl c
  | some member =>
      simp only
      split
      next =>
        have hread := unmoved_readMember h hget now
        have hconsistent := h.readMember hget now
        rcases hresult : c.readMember handle member now with ⟨read, _ | e⟩
        · rw [hresult] at hread hconsistent
          exact hread.trans (hconsistent.unmoved (calm_writeMember read handle))
        · rw [hresult] at hread
          exact hread
      next => exact h.unmoved (calm_writeMember c handle)

/-! ### The others look on -/

/-- Nothing is done to members other than one but that messages are queued for them. -/
def Bystanding (handle : Handle) (c c' : Coordinator) : Prop :=
  ∀ other, other ≠ handle → ∃ slots : List Handle, c'.roster.get? other =
    (c.roster.get? other).map fun member => { member with queue := member.queue ++ slots }

namespace Bystanding

theorem of_get?_eq (h : ∀ other, other ≠ handle → c'.roster.get? other = c.roster.get? other) :
    Bystanding handle c c' := by
  intro other hne
  refine ⟨[], ?_⟩
  rw [h other hne]
  cases c.roster.get? other <;> simp

theorem of_roster_eq (h : c'.roster = c.roster) : Bystanding handle c c' :=
  of_get?_eq fun _ _ => by rw [h]

theorem trans (hab : Bystanding handle a b) (hbc : Bystanding handle b c) :
    Bystanding handle a c := by
  intro other hne
  obtain ⟨slots, hslots⟩ := hab other hne
  obtain ⟨more, hmore⟩ := hbc other hne
  refine ⟨slots ++ more, ?_⟩
  rw [hmore, hslots, Option.map_map]
  simp [Function.comp_def]

theorem modifyMember (c : Coordinator) (handle : Handle) (f : Member → Member) :
    Bystanding handle c (c.modifyMember handle f) :=
  of_get?_eq fun other hne => by rw [Coordinator.modifyMember, Roster.get?_modify, if_neg hne]

theorem settleWrite (c : Coordinator) (handle : Handle) (written : FramedStream.Written) :
    Bystanding handle c (c.settleWrite handle written) := by
  have hstored : Bystanding handle c
      (({ c with host := written.host } : Coordinator).modifyMember handle fun member =>
        { member with stream := written.stream }) :=
    .trans (of_roster_eq rfl) (modifyMember { c with host := written.host } handle _)
  unfold Coordinator.settleWrite
  simp only
  split
  · exact hstored.trans (modifyMember _ handle _)
  · exact hstored

theorem takeNext (c : Coordinator) (handle : Handle) (scratch : Scratch) :
    Bystanding handle c { c with roster := (c.roster.takeNext handle).2, scratch := scratch } :=
  of_get?_eq fun other hne => by rw [Roster.get?_takeNext, if_neg hne]

theorem writeNext (c : Coordinator) (handle : Handle) (member : Member) :
    Bystanding handle c (c.writeNext handle member).1 := by
  unfold Coordinator.writeNext
  rcases hnext : c.roster.takeNext handle with ⟨_ | msg, roster⟩
  · have htaken := takeNext c handle c.scratch
    rw [hnext] at htaken
    exact htaken.trans (modifyMember _ handle _)
  · have htaken := takeNext c handle (member.stream.transmit msg c.scratch c.host).2
    rw [hnext] at htaken
    have hsettled := htaken.trans
      (settleWrite _ handle (member.stream.transmit msg c.scratch c.host).1)
    simp only
    split
    · exact hsettled
    · exact hsettled.trans (of_roster_eq (alike_countSent _ _ _).roster)

theorem writeMember (c : Coordinator) (handle : Handle) :
    Bystanding handle c (c.writeMember handle).1 := by
  unfold Coordinator.writeMember
  split
  next => exact of_roster_eq rfl
  next member _ =>
    split
    · exact of_roster_eq rfl
    · split
      · unfold continueWrite
        simp only
        split <;> exact settleWrite c handle _
      · exact writeNext c handle member

theorem gather (c : Coordinator) (handle : Handle) (member : Member) (now : Instant) :
    Bystanding handle c (c.gather handle member now).1 := by
  have hrefilled : Bystanding handle c (c.refilled handle member) :=
    of_get?_eq fun other hne => by
      rw [(c.refilled_frame handle member).1, Roster.get?_modify, if_neg hne]
  unfold Coordinator.gather
  split
  next => exact hrefilled.trans (of_roster_eq rfl)
  next => exact hrefilled.trans (modifyMember _ handle _)
  next => exact (hrefilled.trans (of_roster_eq rfl)).trans (modifyMember _ handle _)

/-- An announcement changes only its maker's entry. -/
theorem actOnControl (c : Coordinator) (handle : Handle) (msg : Message) :
    Bystanding handle c (c.actOnControl handle msg) := by
  have hroster := c.roster_actOnControl handle msg
  cases msg with
  | connect entry =>
      simp only at hroster
      cases hview : c.roster.viewOf handle with
      | none =>
          rw [Roster.introduce_of_viewOf_none hview] at hroster
          exact of_roster_eq hroster
      | some control =>
          rw [Roster.introduce_of_viewOf hview] at hroster
          intro other hne
          obtain ⟨slots, hslots⟩ := Roster.get?_postAll
            (c.roster.register handle control entry) (c.roster.mail handle entry) other
          exact ⟨slots, by rw [hroster, hslots, Roster.get?_register, if_neg hne]⟩
  | _ => exact of_roster_eq hroster

theorem readMember (c : Coordinator) (handle : Handle) (member : Member) (now : Instant) :
    Bystanding handle c (c.readMember handle member now).1 := by
  rw [readMember_eq_gather]
  refine (gather c handle member now).trans ?_
  exact List.foldlRecOn (motive := Bystanding handle (c.gather handle member now).1) _ _
    (of_roster_eq rfl) fun b hbefore msg _ => hbefore.trans (actOnControl b handle msg)

theorem serveMember (c : Coordinator) (handle : Handle) (now : Instant) :
    Bystanding handle c (c.serveMember handle now).1 := by
  unfold Coordinator.serveMember
  split
  next => exact of_roster_eq rfl
  next member _ =>
    split
    next =>
      have hread := readMember c handle member now
      rcases hresult : c.readMember handle member now with ⟨read, _ | e⟩
      · rw [hresult] at hread
        exact hread.trans (writeMember read handle)
      · rw [hresult] at hread
        exact hread
    next => exact writeMember c handle

end Bystanding

/-! ### What serving fails of -/

/-- A message that is taken off a queue has a frame. -/
theorem encode_of_takeNext {roster roster' : Roster} {msg : Message} (h : roster.Encodable)
    (htaken : roster.takeNext handle = (some msg, roster')) :
    ∃ frame, msg.encode = .ok frame := by
  rcases roster.takeNext_cases handle with ⟨-, hnone⟩ | ⟨_, slot, _, -, -, hsome⟩
  · cases hnone.symm.trans htaken
  · exact h slot msg (congrArg Prod.fst (hsome.symm.trans htaken))

/-- Writing to a member fails when a call is the end of its connection. -/
theorem writeMember_failed_iff (h : Consistent c) (hget : c.roster.get? handle = some member) :
    (c.writeMember handle).2 ≠ none ↔
      endings member.stream.id c.host.calls <
        endings member.stream.id (c.writeMember handle).1.host.calls := by
  have hsettled (c : Coordinator) (written : FramedStream.Written) :
      (c.settleWrite handle written).host = written.host := (settleWrite_frame c handle written).2.1
  unfold writeMember
  rw [hget]
  simp only
  split
  next => simp
  next =>
    split
    next =>
      have hendings := member.stream.endings_resume c.host
      unfold continueWrite
      simp only
      split
      next heq => simp [hsettled, hendings, heq, failures]
      next heq => simp [hsettled, hendings, heq, failures]
    next =>
      unfold writeNext
      rcases htaken : c.roster.takeNext handle with ⟨_ | msg, roster⟩
      · simp [clearMemberWrite, modifyMember]
      · obtain ⟨frame, hframe⟩ := encode_of_takeNext h.encodable htaken
        have hendings := FramedStream.endings_transmit hframe member.stream c.scratch c.host
        simp only
        split
        next heq => simp [hsettled, hendings, heq, failures]
        next heq => simp [(alike_countSent _ _ _).calls, hsettled, hendings, heq, failures]

theorem calls_gather (c : Coordinator) (handle : Handle) (member : Member) (now : Instant) :
    (c.gather handle member now).1.host.calls = (member.stream.receive c.host).host.calls := by
  have hcalls := c.calls_refilled handle member
  unfold gather
  split <;> exact hcalls

theorem calls_readMember (c : Coordinator) (handle : Handle) (member : Member) (now : Instant) :
    (c.readMember handle member now).1.host.calls = (member.stream.receive c.host).host.calls := by
  rw [readMember_eq_gather, calls_actOnDecoded, calls_gather]

theorem calls_readMember_prefix (c : Coordinator) (handle : Handle) (member : Member)
    (now : Instant) : c.host.calls <+: (c.readMember handle member now).1.host.calls := by
  obtain ⟨new, hnew, -⟩ := member.stream.exchange_receive c.host
  rw [calls_readMember, hnew]
  exact List.prefix_append ..

theorem calls_serveMember (c : Coordinator) (handle : Handle) (now : Instant) :
    c.host.calls <+: (c.serveMember handle now).1.host.calls := by
  unfold serveMember
  split
  next => exact List.prefix_rfl
  next member _ =>
    split
    next =>
      have hbefore := c.calls_readMember_prefix handle member now
      rcases hresult : c.readMember handle member now with ⟨read, _ | e⟩
      · rw [hresult] at hbefore
        exact hbefore.trans (calm_writeMember (p := nobody) read handle).calls
      · rw [hresult] at hbefore
        exact hbefore
    next => exact (calm_writeMember (p := nobody) c handle).calls

/-- Reading from a member fails when a call is the end of its connection, or when bytes are
got with which there is a frame that does not decode. -/
theorem readMember_failed_iff (c : Coordinator) (handle : Handle) (member : Member)
    (now : Instant) :
    (c.readMember handle member now).2 ≠ none ↔
      endings member.stream.id c.host.calls <
          endings member.stream.id (c.readMember handle member now).1.host.calls ∨
        member.stream.Garbled c.host := by
  rw [calls_readMember, ← member.stream.receive_error_iff, readMember_eq_gather]
  rcases gather_cases (p := nobody) c handle member now with
    ⟨e, herror, hgather⟩ | ⟨hfine, hnone, -⟩
  · simp [hgather, herror]
  · simp [hnone, hfine]

/-- Serving a member fails when a call is the end of its connection, or when it is read from
and bytes are got with which there is a frame that does not decode. -/
theorem serveMember_failed_iff (h : Consistent c) (hget : c.roster.get? handle = some member)
    (now : Instant) :
    (c.serveMember handle now).2 ≠ none ↔
      endings member.stream.id c.host.calls <
          endings member.stream.id (c.serveMember handle now).1.host.calls ∨
        member.latch.readable = true ∧ member.stream.Garbled c.host := by
  unfold serveMember
  rw [hget]
  simp only
  split
  next hreadable =>
    have hfailed := c.readMember_failed_iff handle member now
    have hconsistent := h.readMember hget now
    have hlines := (unmoved_readMember h hget now).lineOf handle
    have hless : endings member.stream.id c.host.calls ≤
        endings member.stream.id (c.readMember handle member now).1.host.calls :=
      (c.calls_readMember_prefix handle member now).sublist.countP_le
    rcases hresult : c.readMember handle member now with ⟨read, _ | e⟩
    · -- The read has come to no end of the connection, so it is the write that may.
      rw [hresult] at hconsistent hlines hfailed hless
      rw [Roster.lineOf_of_get? hget] at hlines
      obtain ⟨member', hget', hid⟩ := Roster.lineOf_eq_some.1 hlines
      have hwritten := writeMember_failed_iff hconsistent hget'
      rw [hid] at hwritten
      have hfine := mt hfailed.2 (fun hnot => hnot rfl)
      rw [not_or, Nat.not_lt] at hfine
      have hsame := Nat.le_antisymm hless hfine.1
      simp only [hwritten, hsame, hfine.2, and_false, or_false]
    · rw [hresult] at hfailed
      simpa [hreadable] using hfailed
  next hreadable =>
    rw [writeMember_failed_iff h hget]
    simp [hreadable]

/-! ### Turns -/

/-- A member that is attached is served. -/
structure Served (now : Instant) (c : Coordinator) (handle : Handle) : Prop where
  /-- Nobody leaves while a member is served, and the others only have messages queued for
  them. -/
  unmoved : Unmoved c (c.serveMember handle now).1
  others : Bystanding handle c (c.serveMember handle now).1
  /-- This fails when a call is the end of the member's connection, or when bytes are got with
  which there is a frame that does not decode. -/
  failed_iff : ∃ member new, c.roster.get? handle = some member ∧
    (c.serveMember handle now).1.host.calls = c.host.calls ++ new ∧
      ((c.serveMember handle now).2 ≠ none ↔
        (∃ call ∈ new, call.ends member.stream.id = true) ∨
          member.latch.readable = true ∧ member.stream.Garbled c.host)
  /-- Whoever was served well stays, -/
  stays : (c.serveMember handle now).2 = none →
    serveOrDismiss now c handle = (c.serveMember handle now).1
  /-- and otherwise goes, alone. -/
  severed : (c.serveMember handle now).2 ≠ none →
    Severed (c.serveMember handle now).1 handle (serveOrDismiss now c handle)

theorem served (h : Consistent c) (hget : c.roster.get? handle = some member) (now : Instant) :
    Served now c handle := by
  have hunmoved := unmoved_serveMember h handle now
  refine ⟨hunmoved, .serveMember c handle now, ?_, fun hnone => ?_, fun hfailed => ?_⟩
  · obtain ⟨new, hnew⟩ := c.calls_serveMember handle now
    refine ⟨member, new, hget, hnew.symm, ?_⟩
    rw [serveMember_failed_iff h hget, ← hnew, endings_lt_iff]
  · unfold serveOrDismiss
    split
    next heq => rw [heq]
    next heq => rw [heq] at hnone; cases hnone
  · obtain ⟨member', hget', -⟩ := Roster.lineOf_eq_some.1
      ((hunmoved.lineOf handle).trans (Roster.lineOf_of_get? hget))
    have hserved := h.serveMember handle now
    unfold serveOrDismiss
    split
    next heq => rw [heq] at hfailed; exact absurd rfl hfailed
    next c' e heq =>
      rw [heq] at hget' hserved ⊢
      exact severed_dismiss hserved hget' (.channel e)

/-- A member's turn leaves all others on their connections. -/
theorem lineOf_serveOrDismiss (h : Consistent c) (now : Instant) (hne : other ≠ handle) :
    (serveOrDismiss now c handle).roster.lineOf other = c.roster.lineOf other := by
  have hserved := h.serveMember handle now
  rw [← (unmoved_serveMember h handle now).lineOf other]
  unfold serveOrDismiss
  split
  next heq => rw [heq]
  next c' e heq =>
    rw [heq] at hserved ⊢
    rw [Roster.lineOf, get?_dismiss hserved.roster, if_neg hne]
    rfl

theorem lineOf_serveEach (h : Consistent c) (now : Instant) {handles : List Handle}
    (hnot : other ∉ handles) :
    (handles.foldl (serveOrDismiss now) c).roster.lineOf other = c.roster.lineOf other := by
  induction handles generalizing c with
  | nil => rfl
  | cons handle handles ih =>
      rw [List.mem_cons, not_or] at hnot
      rw [List.foldl_cons, ih (h.serveOrDismiss now handle) hnot.2,
        lineOf_serveOrDismiss h now hnot.1]

/-- All members of a snapshot take their turns. -/
structure Turns (now : Instant) (s : Coordinator) : Prop where
  /-- Everybody is named once, in the order in which the connections were accepted. -/
  once : s.roster.order.Nodup
  accepted : s.roster.order.map s.roster.lineOf = s.roster.lines.map some ∧
    s.roster.lines.Sublist (connections s.host.calls)
  /-- When its turn comes, a handle still names the connection that it named in the
  beginning. -/
  sameLine : ∀ before handle after, s.roster.order = before ++ handle :: after →
    (before.foldl (serveOrDismiss now) s).roster.lineOf handle = s.roster.lineOf handle
  /-- It is served then. -/
  served : ∀ before handle after, s.roster.order = before ++ handle :: after →
    Served now (before.foldl (serveOrDismiss now) s) handle
  /-- When all have had their turns, those are gone whom it failed to serve, and the others
  are attached as in the beginning. -/
  left : ∀ before handle after, s.roster.order = before ++ handle :: after →
    (s.serveMembers now).roster.lineOf handle =
      if ((before.foldl (serveOrDismiss now) s).serveMember handle now).2 = none then
        s.roster.lineOf handle
      else none
  nobodyElse : ∀ handle, handle ∉ s.roster.order → (s.serveMembers now).roster.lineOf handle = none

section

variable {s : Coordinator} {before after : List Handle}

theorem lineOf_in_turn (h : Consistent s) (now : Instant)
    (horder : s.roster.order = before ++ handle :: after) :
    (before.foldl (serveOrDismiss now) s).roster.lineOf handle = s.roster.lineOf handle := by
  have hnodup : s.roster.order.Nodup := h.roster.members.nodup_keys
  rw [horder] at hnodup
  exact lineOf_serveEach h now fun hmem =>
    (List.nodup_append.1 hnodup).2.2 _ hmem _ List.mem_cons_self rfl

theorem served_in_turn (h : Consistent s) (now : Instant)
    (horder : s.roster.order = before ++ handle :: after) :
    Served now (before.foldl (serveOrDismiss now) s) handle := by
  have hmem : handle ∈ s.roster.order := horder ▸ List.mem_append_right _ List.mem_cons_self
  obtain ⟨member, hget⟩ := (Roster.mem_order h.roster).1 hmem
  obtain ⟨member', hget', -⟩ := Roster.lineOf_eq_some.1
    ((lineOf_in_turn h now horder).trans (Roster.lineOf_of_get? hget))
  exact served (h.serveEach now before) hget' now

/-- What a member's own turn has done to it is the end of it. -/
theorem lineOf_serveMembers (h : Consistent s) (now : Instant)
    (horder : s.roster.order = before ++ handle :: after) :
    (s.serveMembers now).roster.lineOf handle =
      if ((before.foldl (serveOrDismiss now) s).serveMember handle now).2 = none then
        s.roster.lineOf handle
      else none := by
  have hnodup : s.roster.order.Nodup := h.roster.members.nodup_keys
  rw [horder] at hnodup
  have hlater : handle ∉ after := (List.nodup_cons.1 (List.nodup_append.1 hnodup).2.1).1
  have hturn := served_in_turn h now horder
  have hconsistent := (h.serveEach now before).serveOrDismiss now handle
  rw [serveMembers, horder, List.foldl_append, List.foldl_cons,
    lineOf_serveEach hconsistent now hlater]
  split
  next hnone => rw [hturn.stays hnone, hturn.unmoved.lineOf, lineOf_in_turn h now horder]
  next hfailed =>
    rw [Roster.lineOf, (hturn.severed hfailed).gone]
    rfl

theorem turns (h : Consistent s) (now : Instant) : Turns now s where
  once := h.roster.members.nodup_keys
  accepted := ⟨Roster.map_lineOf_order h.roster, h.accepted⟩
  sameLine _ _ _ horder := lineOf_in_turn h now horder
  served _ _ _ horder := served_in_turn h now horder
  left _ _ _ horder := lineOf_serveMembers h now horder
  nobodyElse handle hnot := by
    rw [serveMembers, lineOf_serveEach h now hnot, Roster.lineOf, Option.map_eq_none_iff]
    exact Option.eq_none_iff_forall_ne_some.2 fun member hget =>
      hnot ((Roster.mem_order h.roster).2 ⟨member, hget⟩)

end

end Coordinator
end Rendezvous
