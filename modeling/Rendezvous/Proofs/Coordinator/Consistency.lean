import Rendezvous.Proofs.Coordinator.Balance
import Rendezvous.Proofs.Coordinator.Holders
import Rendezvous.Proofs.Coordinator.Serving

/-!
# Rendezvous.Proofs.Coordinator.Consistency

**What is true of every reachable state.** The pool of messages holds what is in the queues,
every bound address is somebody's, and the members stand in the order in which their
connections were accepted: `Consistent` says so of a coordinator, together with what the
queues can hold. Members come and go in the middle of an iteration, so this is shown for every
small step (`Consistent.step`), for the three things that are not small steps, and from them
for each function of the loop up to an iteration, also one that fails
(`Consistent.iterate`).
-/

namespace Rendezvous
namespace Roster

variable {roster roster' : Roster} {handle other : Handle} {member : Member}

/-! ### Connections -/

/-- The connection of the member that a handle names. -/
def lineOf (roster : Roster) (handle : Handle) : Option StreamId :=
  (roster.get? handle).map fun member => member.stream.id

/-- The connections of all members, the oldest first. -/
def lines (roster : Roster) : List StreamId := roster.order.filterMap roster.lineOf

theorem lineOf_of_get? (hget : roster.get? handle = some member) :
    roster.lineOf handle = some member.stream.id := by
  rw [lineOf, hget]
  rfl

theorem lineOf_eq_some {id : StreamId} :
    roster.lineOf handle = some id ↔
      ∃ member, roster.get? handle = some member ∧ member.stream.id = id :=
  Option.map_eq_some_iff

theorem mem_order (h : roster.WellFormed) :
    handle ∈ roster.order ↔ ∃ member, roster.get? handle = some member :=
  h.members.mem_keys

/-- Every member has a connection. -/
theorem map_lineOf_order (h : roster.WellFormed) :
    roster.order.map roster.lineOf = roster.lines.map some := by
  rw [lines, List.map_filterMap, ← List.filterMap_eq_map]
  refine List.filterMap_congr fun handle hmem => ?_
  obtain ⟨member, hget⟩ := (mem_order h).1 hmem
  rw [Function.comp_apply, lineOf_of_get? hget]
  rfl

theorem lines_congr (horder : roster'.order = roster.order)
    (hlines : ∀ handle, roster'.lineOf handle = roster.lineOf handle) :
    roster'.lines = roster.lines := by
  rw [lines, lines, horder, funext hlines]

theorem lineOf_modify {f : Member → Member}
    (hf : ∀ member, roster.get? handle = some member → (f member).stream.id = member.stream.id)
    (other : Handle) : (roster.modify handle f).lineOf other = roster.lineOf other := by
  rw [lineOf, get?_modify]
  split
  next hsame =>
    subst hsame
    cases hget : roster.get? other with
    | none => simp [lineOf, hget]
    | some member => simp [lineOf, hget, hf member hget]
  next => rfl

theorem order_modify (h : roster.WellFormed) (handle : Handle) (f : Member → Member) :
    (roster.modify handle f).order = roster.order :=
  h.members.keys_modify handle f

theorem lineOf_takeNext (roster : Roster) (handle other : Handle) :
    (roster.takeNext handle).2.lineOf other = roster.lineOf other := by
  rw [lineOf, get?_takeNext]
  split
  · rw [Option.map_map]
    rfl
  · rfl

theorem lineOf_detach (h : roster.WellFormed) (handle other : Handle) :
    (roster.detach handle).2.lineOf other =
      if other = handle then none else roster.lineOf other := by
  rw [lineOf, get?_detach h]
  split <;> rfl

/-- Who leaves is missing in the row of connections. -/
theorem lines_detach (h : roster.WellFormed) (handle : Handle) :
    (roster.detach handle).2.lines.Sublist roster.lines := by
  have hcongr : (roster.detach handle).2.order.filterMap (roster.detach handle).2.lineOf =
      (roster.detach handle).2.order.filterMap roster.lineOf := by
    refine List.filterMap_congr fun other hmem => ?_
    rw [order_detach h] at hmem
    rw [lineOf_detach h, if_neg (of_decide_eq_true (List.mem_filter.1 hmem).2)]
  rw [lines, hcongr, order_detach h]
  exact List.filter_sublist.filterMap _

theorem lineOf_enroll (h : roster.WellFormed) (stream : FramedStream) (addr : SocketAddr)
    (timer : Timer) (other : Handle) :
    (roster.enroll stream addr timer).val.2.lineOf other =
      if other = (roster.enroll stream addr timer).val.1 then some stream.id
      else roster.lineOf other := by
  rw [lineOf, get?_enroll h]
  split <;> rfl

/-- Whoever is attached is the last in the row of connections. -/
theorem lines_enroll (h : roster.WellFormed) (stream : FramedStream) (addr : SocketAddr)
    (timer : Timer) :
    (roster.enroll stream addr timer).val.2.lines = roster.lines ++ [stream.id] := by
  have hfresh := get?_fst_enroll h stream addr timer
  have hcongr : roster.order.filterMap (roster.enroll stream addr timer).val.2.lineOf =
      roster.lines := by
    refine List.filterMap_congr fun other hmem => ?_
    rw [lineOf_enroll h, if_neg]
    rintro rfl
    obtain ⟨member, hget⟩ := (mem_order h).1 hmem
    rw [hfresh] at hget
    cases hget
  rw [lines, order_enroll h, List.filterMap_append, hcongr]
  simp [lineOf_enroll h]

theorem lineOf_introduce (roster : Roster) (handle : Handle) (entry : PeerEntry)
    (other : Handle) :
    (roster.introduce handle entry).val.2.lineOf other = roster.lineOf other := by
  obtain ⟨entries, slots, hslots⟩ := roster.get?_introduce handle entry other
  rw [lineOf, hslots, Option.map_map]
  rfl

/-! ### Messages -/

/-- Every message in the pool has a frame. -/
def Encodable (roster : Roster) : Prop :=
  ∀ slot msg, roster.messages.get? slot = some msg → ∃ frame, msg.encode = .ok frame

namespace Encodable

theorem of_get? (h : roster.Encodable)
    (hmessages : ∀ slot msg, roster'.messages.get? slot = some msg →
      roster.messages.get? slot = some msg) : roster'.Encodable :=
  fun slot msg hmsg => h slot msg (hmessages slot msg hmsg)

theorem post (h : roster.Encodable) (hwf : roster.WellFormed) (handle : Handle) {msg : Message}
    (hmsg : ∃ frame, msg.encode = .ok frame) : (roster.post handle msg).Encodable := by
  cases hget : roster.get? handle with
  | none => rwa [post_of_absent hget]
  | some member =>
      intro slot found hfound
      rw [messages_post hget, hwf.messages.get?_insert] at hfound
      split at hfound
      · cases hfound
        exact hmsg
      · exact h slot found hfound

theorem postAll (h : roster.Encodable) (hwf : roster.WellFormed) {mail : List (Handle × Message)}
    (hmail : ∀ item ∈ mail, ∃ frame, item.2.encode = .ok frame) :
    (roster.postAll mail).Encodable := by
  induction mail generalizing roster with
  | nil => exact h
  | cons item mail ih =>
      exact ih (h.post hwf item.1 (hmail item List.mem_cons_self)) (hwf.post item.1 item.2)
        fun next hnext => hmail next (List.mem_cons_of_mem _ hnext)

theorem takeNext (h : roster.Encodable) (hwf : roster.WellFormed) (handle : Handle) :
    (roster.takeNext handle).2.Encodable := by
  rcases takeNext_cases roster handle with ⟨-, htake⟩ | ⟨member, slot, rest, -, -, htake⟩
  · rwa [htake]
  · refine h.of_get? fun other msg hmsg => ?_
    rw [htake, hwf.messages.get?_remove] at hmsg
    split at hmsg
    · cases hmsg
    · exact hmsg

theorem detach (h : roster.Encodable) (hwf : roster.WellFormed) (handle : Handle) :
    (roster.detach handle).2.Encodable := by
  refine h.of_get? fun slot msg hmsg => ?_
  rw [get?_messages_detach hwf] at hmsg
  split at hmsg
  · cases hmsg
  · exact hmsg

theorem introduce (h : roster.Encodable) (hwf : roster.WellFormed) (handle : Handle)
    {entry : PeerEntry}
    (hmail : ∀ item ∈ roster.mail handle entry, ∃ frame, item.2.encode = .ok frame) :
    (roster.introduce handle entry).val.2.Encodable := by
  cases hview : roster.viewOf handle with
  | none => rwa [introduce_of_viewOf_none hview]
  | some control =>
      rw [introduce_of_viewOf hview]
      have hregistered : (roster.register handle control entry).Encodable := h
      exact hregistered.postAll (hwf.register handle control entry) hmail

end Encodable

/-- A message stays in its queue when queues and messages stay as they are. -/
theorem Owned.congr (ho : roster.Owned) (hmessages : roster'.messages = roster.messages)
    (hqueue : ∀ handle, roster'.queueOf handle = roster.queueOf handle) : roster'.Owned := by
  intro slot msg hmsg
  rw [hmessages] at hmsg
  obtain ⟨owner, howner⟩ := ho slot msg hmsg
  exact ⟨owner, (hqueue owner).symm ▸ howner⟩

theorem queueOf_modify {f : Member → Member} (hf : ∀ member, (f member).queue = member.queue)
    (handle other : Handle) : (roster.modify handle f).queueOf other = roster.queueOf other := by
  unfold queueOf
  rw [get?_modify]
  by_cases hsame : other = handle
  · rw [if_pos hsame]
    cases roster.get? other with
    | none => rfl
    | some member => exact hf member
  · rw [if_neg hsame]

end Roster

namespace Coordinator

variable {p : Handle → Prop} {c c' : Coordinator} {handle : Handle} {member : Member}
  {host : Host}

/-- What is true of every reachable state. -/
structure Consistent (c : Coordinator) : Prop where
  roster : c.roster.WellFormed
  /-- Every message in the pool is in somebody's queue. -/
  owned : c.roster.Owned
  /-- Every binding is a member's. -/
  held : ∃ holders, c.roster.Held holders
  encodable : c.roster.Encodable
  /-- Members stand in the order in which their connections were accepted. -/
  accepted : c.roster.lines.Sublist (connections c.host.calls)
  /-- Only answers to address requests are to be sent as datagrams. -/
  answers : ∀ item ∈ c.outbox, ∃ addr, item.1 = .stunResponse addr

namespace Consistent

/-- Nothing of a member matters but its connection, its address, its entry and its queue. -/
theorem modify (h : Consistent c) {f : Member → Member}
    (hroster : c'.roster = c.roster.modify handle f)
    (hqueue : ∀ member, (f member).queue = member.queue)
    (hsame : ∀ member, c.roster.get? handle = some member →
      (f member).stream.id = member.stream.id ∧ (f member).addr = member.addr ∧
        (f member).entry = member.entry)
    (hhost : connections c'.host.calls = connections c.host.calls)
    (houtbox : Answering c.outbox c'.outbox) : Consistent c' where
  roster := hroster ▸ h.roster.modify handle hqueue
  owned := hroster ▸ h.owned.congr rfl (Roster.queueOf_modify hqueue handle)
  held := by
    obtain ⟨holders, hheld⟩ := h.held
    refine ⟨holders, hheld.congr (by rw [hroster]; rfl) fun holder _ => ?_⟩
    rw [hroster, Roster.card, Roster.get?_modify]
    split
    next hsameHandle =>
      subst hsameHandle
      cases hget : c.roster.get? holder with
      | none => simp [Roster.card, hget]
      | some member =>
          obtain ⟨-, haddr, hentry⟩ := hsame member hget
          simp [Roster.card, hget, haddr, hentry]
    next => rfl
  encodable := by
    rw [hroster]
    exact h.encodable
  accepted := by
    rw [hhost, hroster, Roster.lines_congr (Roster.order_modify h.roster handle f)
      (Roster.lineOf_modify fun member hget => (hsame member hget).1)]
    exact h.accepted
  answers := fun item hitem => (houtbox item hitem).elim (h.answers item) id

theorem step (h : Consistent c) (hstep : Step p c c') : Consistent c' := by
  cases hstep with
  | aside roster _ host _ outbox =>
      refine ⟨roster ▸ h.roster, roster ▸ h.owned, roster ▸ h.held, roster ▸ h.encodable, ?_, ?_⟩
      · rw [roster, host.connections_eq]
        exact h.accepted
      · exact fun item hitem => (outbox item hitem).elim (h.answers item) id
  | adjust handle f queue same =>
      exact h.modify rfl queue
        (fun member hget => ⟨(same member hget).stream, (same member hget).addr,
          (same member hget).entry⟩) rfl fun _ => .inl
  | takeNext handle =>
      obtain ⟨holders, hheld⟩ := h.held
      refine ⟨h.roster.takeNext handle, h.owned.takeNext h.roster handle,
        ⟨holders, hheld.takeNext handle⟩, h.encodable.takeNext h.roster handle, ?_, h.answers⟩
      have hlines := Roster.lines_congr (Roster.order_takeNext h.roster handle)
        (Roster.lineOf_takeNext c.roster handle)
      exact hlines.symm ▸ h.accepted
  | detach handle =>
      obtain ⟨holders, hheld⟩ := h.held
      exact ⟨h.roster.detach handle, h.owned.detach h.roster handle,
        ⟨_, hheld.detach h.roster handle⟩, h.encodable.detach h.roster handle,
        (Roster.lines_detach h.roster handle).trans h.accepted, h.answers⟩

theorem calm (h : Consistent c) (hcalm : Calm p c c') : Consistent c' :=
  hcalm.induction (motive := Consistent) h fun hstep hbefore => hbefore.step hstep

/-- The shared inbox does not matter. -/
theorem clear (h : Consistent c) : Consistent { c with decoded := [] } :=
  ⟨h.roster, h.owned, h.held, h.encodable, h.accepted, h.answers⟩

/-- The connection that comes in is the last one accepted. -/
theorem enroll (h : Consistent c) {id : StreamId} {addr : SocketAddr}
    (haccept : c.host.accept = (.ok (id, addr), host)) (timer : Timer) :
    Consistent
      { c with host := host, roster := (c.roster.enroll (.ofStream id) addr timer).val.2 } := by
  obtain ⟨holders, hheld⟩ := h.held
  refine ⟨h.roster.enroll _ addr timer, h.owned.enroll h.roster _ addr timer,
    ⟨holders, hheld.enroll h.roster _ addr timer⟩, h.encodable, ?_, h.answers⟩
  rw [Roster.lines_enroll h.roster, connections_accept haccept]
  exact h.accepted.append (List.Sublist.refl _)

/-- Bytes come in over a member's own connection. -/
theorem refilled (h : Consistent c) (hget : c.roster.get? handle = some member) :
    Consistent (c.refilled handle member) := by
  obtain ⟨hroster, -, hcalls, -, houtbox⟩ := c.refilled_frame handle member
  refine h.modify hroster (fun _ => rfl) (fun other hother => ?_) ?_ fun item hitem =>
    .inl (houtbox ▸ hitem)
  · obtain rfl := Option.some.inj (hget.symm.trans hother)
    exact ⟨member.stream.id_receive c.host, rfl, rfl⟩
  · rw [hcalls, connections_receive]

/-- An entry is announced, and messages are queued for it. -/
theorem actOnControl (h : Consistent c) (handle : Handle) (msg : Message) :
    Consistent (c.actOnControl handle msg) := by
  obtain ⟨-, hcalls, -, houtbox⟩ := c.actOnControl_frame handle msg
  obtain ⟨holders, hheld⟩ := h.held
  have hroster := c.roster_actOnControl handle msg
  cases msg with
  | connect entry =>
      simp only at hroster
      refine ⟨?_, ?_, ?_, ?_, ?_, houtbox ▸ h.answers⟩
      · exact hroster ▸ h.roster.introduce handle entry
      · exact hroster ▸ h.owned.introduce h.roster handle entry
      · exact ⟨_, hroster ▸ hheld.introduce handle entry⟩
      · rw [hroster]
        refine h.encodable.introduce h.roster handle fun item hitem => ?_
        have hreply : item ∈ c.replies handle (.connect entry) := hitem
        exact Ledger.exists_encode_of_mem_replies hreply
      · rw [hcalls, hroster, Roster.lines_congr (Roster.order_introduce h.roster handle entry)
          (Roster.lineOf_introduce c.roster handle entry)]
        exact h.accepted
  | _ =>
      exact ⟨hroster ▸ h.roster, hroster ▸ h.owned, hroster ▸ h.held, hroster ▸ h.encodable,
        by rw [hroster, hcalls]; exact h.accepted, houtbox ▸ h.answers⟩

theorem actOnDecoded (h : Consistent c) (handle : Handle) : Consistent (c.actOnDecoded handle) :=
  List.foldlRecOn (motive := Consistent) _ _ h.clear fun _ hbefore msg _ =>
    hbefore.actOnControl handle msg

theorem gather (h : Consistent c) (hget : c.roster.get? handle = some member) (now : Instant) :
    Consistent (c.gather handle member now).1 := by
  rcases gather_cases (p := nobody) c handle member now with ⟨e, -, hgather⟩ | ⟨-, -, hcalm⟩
  · rw [hgather]
    exact (h.refilled hget).clear
  · exact (h.refilled hget).calm hcalm

theorem readMember (h : Consistent c) (hget : c.roster.get? handle = some member)
    (now : Instant) : Consistent (c.readMember handle member now).1 := by
  rw [readMember_eq_gather]
  exact (h.gather hget now).actOnDecoded handle

theorem serveMember (h : Consistent c) (handle : Handle) (now : Instant) :
    Consistent (c.serveMember handle now).1 := by
  unfold Coordinator.serveMember
  cases hget : c.roster.get? handle with
  | none => exact h
  | some member =>
      simp only
      split
      next =>
        have hread := h.readMember hget now
        rcases hresult : c.readMember handle member now with ⟨read, _ | e⟩
        · rw [hresult] at hread
          exact hread.calm (calm_writeMember (p := nobody) read handle)
        · rw [hresult] at hread
          exact hread
      next => exact h.calm (calm_writeMember (p := nobody) c handle)

theorem dismiss (h : Consistent c) (handle : Handle) (departure : Departure) :
    Consistent (c.dismiss handle departure) :=
  h.calm (calm_dismiss (p := anyone) c trivial departure)

theorem serveOrDismiss (h : Consistent c) (now : Instant) (handle : Handle) :
    Consistent (serveOrDismiss now c handle) := by
  have hserved := h.serveMember handle now
  unfold Coordinator.serveOrDismiss
  rcases hresult : c.serveMember handle now with ⟨served, _ | e⟩
  · rw [hresult] at hserved
    exact hserved
  · rw [hresult] at hserved
    exact hserved.dismiss handle (.channel e)

theorem serveEach (h : Consistent c) (now : Instant) (handles : List Handle) :
    Consistent (handles.foldl (Coordinator.serveOrDismiss now) c) :=
  List.foldlRecOn (motive := Consistent) _ _ h fun _ hbefore handle _ =>
    hbefore.serveOrDismiss now handle

theorem acceptOne (h : Consistent c) (now : Instant) : Consistent (c.acceptOne now).state := by
  rcases acceptOne_cases (p := anyone) c now fun _ _ _ => trivial with
    hcalm | ⟨id, addr, host, haccept, -, hcalm⟩
  · exact h.calm hcalm
  · exact (h.enroll haccept _).calm hcalm

/-- In the state in which an iteration serves its members. -/
theorem serving {turn : Turn} {s : Coordinator} {now : Instant} (h : Consistent c)
    (hserving : c.serving turn = some (s, now)) : Consistent s := by
  rcases c.serving_cases turn with ⟨hnone, -⟩ | ⟨w, ready, s', hwatched, hready, haccept, hsome, -⟩
  · cases hnone.symm.trans hserving
  · cases hsome.symm.trans hserving
    have hw := calm_watched c turn
    rw [hwatched] at hw
    have hs := ((h.calm hw).calm (calm_latched (p := nobody) hready)).acceptOne
      ready.host.clock
    rwa [haccept] at hs

/-- An iteration keeps a state consistent, even if it fails. -/
theorem iterate (h : Consistent c) (turn : Turn) : Consistent (c.iterate turn).state := by
  rcases c.serving_cases turn with ⟨-, hcalm⟩ | ⟨w, ready, s, -, -, -, hserving, hrest⟩
  · exact h.calm hcalm
  · rw [hrest]
    exact ((h.serving hserving).serveEach ready.host.clock s.roster.order).calm (calm_finish _ _ _)

end Consistent

theorem consistent_start {config : CoordinatorConfig} (h : Coordinator.start config host = .ok c) :
    Consistent c := by
  obtain ⟨hroster, -, -, -⟩ := start_ok h
  refine ⟨hroster ▸ Roster.wellFormed_empty, hroster ▸ Roster.owned_empty,
    ⟨[], hroster ▸ Roster.held_empty⟩, ?_, ?_, ?_⟩
  · rw [hroster]
    intro slot msg hmsg
    cases hmsg
  · rw [hroster]
    exact List.nil_sublist _
  · rw [(start_empty h).2]
    nofun

theorem Reachable.consistent {config : CoordinatorConfig} (h : Reachable config c) :
    Consistent c := by
  induction h with
  | start h => exact consistent_start h
  | iterate turn _ _ ih => exact ih.iterate turn

end Coordinator
end Rendezvous
