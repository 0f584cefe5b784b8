import Rendezvous.Proofs.Coordinator.Consistency

/-!
# Rendezvous.Proofs.Coordinator.Severance

**A member goes alone.** Dismissing a member frees the slots of its queue and the binding that
it holds, and closes its connection; it is gone from the roster then, and everybody else is as
before, in every field (`Severed`). That takes the invariants of a reachable state: a slot is
in one queue, and a binding belongs to one member.

Members are dismissed in rows, of which none is left out and none disturbs another
(`Parted`): those whom the poller refuses to watch for what they need, found out while asking
for everybody (`Asked`), and those that are overdue.
-/

namespace Rendezvous
namespace Roster

variable {roster : Roster} {handle : Handle}

/-- Who leaves releases the bindings that are theirs. -/
theorem get?_addresses_detach {holders : List Handle} (h : Held roster holders)
    (handle : Handle) (key : SocketV4) :
    (roster.detach handle).2.addresses.get? key =
      if roster.addresses.get? key = some handle then none else roster.addresses.get? key := by
  have hview : roster.addresses.get? key = some handle → roster.viewOf handle = some key :=
    fun hbound => ((h.bound key handle).1 hbound).2
  rw [addresses_detach]
  split
  next control hcontrol =>
    by_cases hown : roster.addresses.get? control = some handle
    · rw [if_pos hown, h.addresses.get?_remove]
      by_cases hsame : key = control
      · rw [if_pos hsame, if_pos (hsame ▸ hown)]
      · rw [if_neg hsame, if_neg fun hbound =>
          hsame (Option.some.inj ((hview hbound).symm.trans hcontrol))]
    · rw [if_neg hown, if_neg]
      rintro hbound
      obtain rfl := Option.some.inj ((hview hbound).symm.trans hcontrol)
      exact hown hbound
  next hnone =>
    rw [if_neg fun hbound => nomatch (hview hbound).symm.trans hnone]

/-- Who leaves gives back as many messages as are in their queue. -/
theorem size_messages_detach (h : roster.WellFormed) (ho : roster.Owned)
    (hmem : handle ∈ roster.order) :
    (roster.detach handle).2.messages.size + (roster.queueOf handle).length =
      roster.messages.size := by
  have horder : (roster.detach handle).2.order = roster.order.erase handle := by
    rw [order_detach h, order, h.members.nodup_keys.erase_eq_filter]
    refine List.filter_congr fun other _ => ?_
    by_cases hsame : other = handle <;> simp [hsame]
  have hqueues : (roster.order.erase handle).map
        (fun other => ((roster.detach handle).2.queueOf other).length) =
      (roster.order.erase handle).map fun other => (roster.queueOf other).length := by
    refine List.map_congr_left fun other hother => ?_
    have hne : other ≠ handle := by
      rintro rfl
      exact h.members.nodup_keys.not_mem_erase hother
    rw [queueOf_detach h, if_neg hne]
  have hsum := ((List.perm_cons_erase hmem).map
    fun other => (roster.queueOf other).length).sum_nat
  rw [size_messages (h.detach handle) (ho.detach h handle), size_messages h ho, horder, hqueues,
    hsum, List.map_cons, List.sum_cons, Nat.add_comm]

end Roster

namespace Coordinator

variable {c c' : Coordinator} {handle : Handle} {member : Member}

/-! ### One member -/

/-- A member has been taken off the roster, and nobody else is affected. -/
structure Severed (c : Coordinator) (handle : Handle) (c' : Coordinator) : Prop where
  /-- The poller forgets its connection, which is closed; nothing else is asked of the
  system. -/
  calls : ∃ member failure, c.roster.get? handle = some member ∧
    c'.host.calls = c.host.calls ++
      [.deregister (.stream member.stream.id) failure, .close member.stream.id]
  /-- Nothing is used up of what is in store for any stream. -/
  store : c'.host.streams = c.host.streams
  gone : c'.roster.get? handle = none
  /-- All others keep their connection with what is held and in flight, their entry, their
  queue, their readiness, what they are watched for and their timer. -/
  others : ∀ other, other ≠ handle → c'.roster.get? other = c.roster.get? other
  /-- So they keep the messages in their queues. -/
  pending : ∀ other, other ≠ handle → c'.roster.pending other = c.roster.pending other
  order : c'.roster.order = c.roster.order.filter fun other => other ≠ handle
  /-- Its messages are released, and no others. -/
  messages : ∀ slot, c'.roster.messages.get? slot =
    if slot ∈ c.roster.queueOf handle then none else c.roster.messages.get? slot
  /-- The pool has as many more free slots. -/
  size : c'.roster.messages.size + (c.roster.queueOf handle).length = c.roster.messages.size
  capacity : c'.roster.messages.capacity = c.roster.messages.capacity
  /-- Its binding is released, and no others. -/
  addresses : ∀ key, c'.roster.addresses.get? key =
    if c.roster.addresses.get? key = some handle then none else c.roster.addresses.get? key
  /-- Nothing is changed about the shared sources. -/
  shared : c'.listenerLatch = c.listenerLatch ∧ c'.packetLatch = c.packetLatch ∧
    c'.packetWatch = c.packetWatch ∧ c'.outbox = c.outbox

theorem streams_dismiss (c : Coordinator) (handle : Handle) (departure : Departure) :
    (c.dismiss handle departure).host.streams = c.host.streams := by
  unfold dismiss
  split
  next => rfl
  next member _ _ =>
    have hanswer : (c.host.deregister (.stream member.stream.id)).2.streams = c.host.streams := rfl
    rcases hresult : c.host.deregister (.stream member.stream.id) with ⟨_ | kind, host⟩
    all_goals rw [hresult] at hanswer; exact hanswer

theorem severed_dismiss (h : Consistent c) (hget : c.roster.get? handle = some member)
    (departure : Departure) : Severed c handle (c.dismiss handle departure) := by
  obtain ⟨hroster, ⟨failure, hcalls⟩, -, hlistener, hlatch, hwatch, houtbox⟩ :=
    dismiss_frame hget departure
  obtain ⟨holders, hheld⟩ := h.held
  have hmem := (Roster.mem_order h.roster).2 ⟨member, hget⟩
  refine ⟨⟨member, failure, hget, ?_⟩, streams_dismiss c handle departure, ?_,
    fun other hne => ?_, fun other hne => ?_, ?_, ?_, ?_, ?_, ?_, hlistener, hlatch, hwatch,
    houtbox⟩
  · rw [hcalls, List.append_assoc]
    rfl
  · rw [get?_dismiss h.roster, if_pos rfl]
  · rw [get?_dismiss h.roster, if_neg hne]
  · rw [hroster, Roster.pending_detach h.roster, if_neg hne]
  · rw [hroster, Roster.order_detach h.roster]
  · intro slot
    rw [hroster, Roster.get?_messages_detach h.roster]
  · rw [hroster, Roster.size_messages_detach h.roster h.owned hmem]
  · rw [hroster, Roster.capacity_detach]
  · intro key
    rw [hroster, Roster.get?_addresses_detach hheld]

/-! ### A row of members -/

/-- Dismisses members one after another. -/
def dismissEach (c : Coordinator) (losses : List (Handle × Departure)) : Coordinator :=
  losses.foldl (fun c loss => c.dismiss loss.1 loss.2) c

theorem dismissEach_cons (c : Coordinator) (loss : Handle × Departure)
    (losses : List (Handle × Departure)) :
    c.dismissEach (loss :: losses) = (c.dismiss loss.1 loss.2).dismissEach losses := rfl

theorem dismissEach_concat (c : Coordinator) (losses : List (Handle × Departure))
    (loss : Handle × Departure) :
    c.dismissEach (losses ++ [loss]) = (c.dismissEach losses).dismiss loss.1 loss.2 := by
  simp [dismissEach]

/-- Some members are dismissed one after another. -/
structure Parted (c : Coordinator) (losses : List (Handle × Departure)) : Prop where
  /-- Each of them goes alone, in the state that those before it have left. -/
  severed : ∀ before loss after, losses = before ++ loss :: after →
    Severed (c.dismissEach before) loss.1 (c.dismissEach (before ++ [loss]))
  /-- Whoever is not one of them is as before. -/
  get? : ∀ other, (c.dismissEach losses).roster.get? other =
    if other ∈ losses.map Prod.fst then none else c.roster.get? other
  order : (c.dismissEach losses).roster.order =
    c.roster.order.filter fun other => other ∉ losses.map Prod.fst

theorem Consistent.dismissEach (h : Consistent c) (losses : List (Handle × Departure)) :
    Consistent (c.dismissEach losses) :=
  List.foldlRecOn (motive := Consistent) _ _ h fun _ hbefore loss _ =>
    hbefore.dismiss loss.1 loss.2

theorem get?_dismissEach (h : Consistent c) (losses : List (Handle × Departure)) (other : Handle) :
    (c.dismissEach losses).roster.get? other =
      if other ∈ losses.map Prod.fst then none else c.roster.get? other := by
  induction losses generalizing c with
  | nil => rfl
  | cons loss losses ih =>
      have hdismissed := h.dismiss loss.1 loss.2
      rw [dismissEach_cons, ih hdismissed, get?_dismiss h.roster, List.map_cons]
      by_cases hfirst : other = loss.1
      · simp [hfirst]
      · rw [if_neg hfirst]
        simp only [List.mem_cons, hfirst, false_or]

theorem order_dismiss (h : Consistent c) (handle : Handle) (departure : Departure) :
    (c.dismiss handle departure).roster.order =
      c.roster.order.filter fun other => other ≠ handle := by
  cases hget : c.roster.get? handle with
  | some member => exact (severed_dismiss h hget departure).order
  | none =>
      rw [dismiss_of_absent hget, Eq.comm, List.filter_eq_self]
      intro other hmem
      obtain ⟨member, hmember⟩ := (Roster.mem_order h.roster).1 hmem
      refine decide_eq_true ?_
      rintro rfl
      cases hmember.symm.trans hget

theorem order_dismissEach (h : Consistent c) (losses : List (Handle × Departure)) :
    (c.dismissEach losses).roster.order =
      c.roster.order.filter fun other => other ∉ losses.map Prod.fst := by
  induction losses generalizing c with
  | nil => simp [Coordinator.dismissEach]
  | cons loss losses ih =>
      have hdismissed := h.dismiss loss.1 loss.2
      rw [dismissEach_cons, ih hdismissed, order_dismiss h, List.filter_filter]
      refine List.filter_congr fun other _ => ?_
      by_cases hfirst : other = loss.1 <;> simp [hfirst]

/-- Members that are attached, each named once, are dismissed one after another without
disturbing anybody. -/
theorem parted (h : Consistent c) {losses : List (Handle × Departure)}
    (hlosses : (losses.map Prod.fst).Sublist c.roster.order) : Parted c losses := by
  refine ⟨?_, get?_dismissEach h losses, order_dismissEach h losses⟩
  rintro before loss after rfl
  have hnodup : ((before ++ loss :: after).map Prod.fst).Nodup :=
    h.roster.members.nodup_keys.sublist hlosses
  rw [List.map_append, List.map_cons] at hnodup hlosses
  obtain ⟨member, hget⟩ := (Roster.mem_order h.roster).1
    (hlosses.subset (List.mem_append_right _ List.mem_cons_self))
  have hnot : loss.1 ∉ before.map Prod.fst := fun hmem =>
    (List.nodup_append.1 hnodup).2.2 _ hmem _ List.mem_cons_self rfl
  have hstill : (c.dismissEach before).roster.get? loss.1 = some member := by
    rw [get?_dismissEach h, if_neg hnot, hget]
  rw [dismissEach_concat]
  exact severed_dismiss (h.dismissEach before) hstill loss.2

/-! ### Members that are overdue -/

/-- Whoever has been silent for too long, to be dismissed for that. -/
def overdueLosses (c : Coordinator) (now : Instant) : List (Handle × Departure) :=
  (c.roster.overdue now).map fun handle => (handle, .idle)

theorem dismissIdle_eq (c : Coordinator) (now : Instant) :
    c.dismissIdle now = c.dismissEach (c.overdueLosses now) := by
  rw [dismissIdle, dismissEach, overdueLosses, List.foldl_map]

theorem map_fst_overdueLosses (c : Coordinator) (now : Instant) :
    (c.overdueLosses now).map Prod.fst = c.roster.overdue now := by
  simp [overdueLosses, Function.comp_def]

/-- The overdue members are those whose timers have run out. -/
theorem mem_overdue (h : c.roster.WellFormed) {now : Instant} :
    handle ∈ c.roster.overdue now ↔
      ∃ member, c.roster.get? handle = some member ∧ member.timer.ranOut now = true := by
  simp only [Roster.overdue, List.mem_map, List.mem_filter, Prod.exists]
  constructor
  · rintro ⟨other, member, ⟨hmem, hout⟩, rfl⟩
    exact ⟨member, h.members.mem_toList.1 hmem, hout⟩
  · rintro ⟨member, hget, hout⟩
    exact ⟨handle, member, ⟨h.members.mem_toList.2 hget, hout⟩, rfl⟩

theorem parted_overdue (h : Consistent c) (now : Instant) : Parted c (c.overdueLosses now) := by
  refine parted h ?_
  rw [map_fst_overdueLosses]
  exact List.filter_sublist.map _

/-! ### Members that the poller refuses -/

/-- Asks the poller for some members. -/
def askEach (c : Coordinator) (handles : List Handle) : Coordinator × List (Handle × IoKind) :=
  handles.foldl watchMember (c, [])

/-- Whoever the poller refuses to watch, to be dismissed for that. -/
def refusals (c : Coordinator) : List (Handle × Departure) :=
  (c.askEach c.roster.order).2.map fun entry => (entry.1, .channel (.io entry.2))

theorem watchMembers_eq (c : Coordinator) :
    c.watchMembers = (c.askEach c.roster.order).1.dismissEach c.refusals := by
  rw [dismissEach, refusals, List.foldl_map]
  rfl

/-- Asking the poller for some members, of whom it refuses some. -/
structure Asked (handles : List Handle) (c : Coordinator) (c' : Coordinator)
    (refused : List (Handle × IoKind)) : Prop where
  /-- Members change in nothing but what they are watched for. -/
  get? : ∀ handle, ∃ watch : Member → Interest, c'.roster.get? handle =
    (c.roster.get? handle).map fun member => { member with watch := watch member }
  order : c'.roster.order = c.roster.order
  once : (refused.map Prod.fst).Sublist handles
  /-- The poller refuses those for whom it answers a failure. -/
  calls : ∃ new, c'.host.calls = c.host.calls ++ new ∧
    ∀ handle kind, (handle, kind) ∈ refused ↔ ∃ id interest,
      .reregister (.stream id) (tokenOfMember handle) interest (some kind) ∈ new

theorem Asked.trans {handles later : List Handle} {a b c : Coordinator}
    {first second : List (Handle × IoKind)} (hab : Asked handles a b first)
    (hbc : Asked later b c second) : Asked (handles ++ later) a c (first ++ second) where
  get? := by
    intro handle
    obtain ⟨watch, hwatch⟩ := hab.get? handle
    obtain ⟨watch', hwatch'⟩ := hbc.get? handle
    exact ⟨fun member => watch' { member with watch := watch member },
      by rw [hwatch', hwatch, Option.map_map]; rfl⟩
  order := hbc.order.trans hab.order
  once := by
    rw [List.map_append]
    exact hab.once.append hbc.once
  calls := by
    obtain ⟨new, hnew, hrefused⟩ := hab.calls
    obtain ⟨more, hmore, hrefused'⟩ := hbc.calls
    refine ⟨new ++ more, by rw [hmore, hnew, List.append_assoc], fun handle kind => ?_⟩
    simp only [List.mem_append, hrefused, hrefused', exists_or]

theorem Asked.refl (handles : List Handle) (c : Coordinator) : Asked handles c c [] where
  get? := fun handle => ⟨Member.watch, by cases c.roster.get? handle <;> rfl⟩
  order := rfl
  once := List.nil_sublist _
  calls := ⟨[], by simp, by simp⟩

theorem tokenOfMember_inj {other : Handle} :
    tokenOfMember handle = tokenOfMember other ↔ handle = other := by
  rw [tokenOfMember, tokenOfMember, Nat.add_right_inj]
  exact ⟨fun h => by cases handle; cases other; exact congrArg Handle.mk h, congrArg _⟩

theorem asked_watchMember (h : Consistent c) (failed : List (Handle × IoKind)) (handle : Handle) :
    ∃ refused, (watchMember (c, failed) handle).2 = failed ++ refused ∧
      Asked [handle] c (watchMember (c, failed) handle).1 refused := by
  unfold watchMember
  simp only
  split
  next => exact ⟨[], (List.append_nil _).symm, .refl _ c⟩
  next member hget =>
    have hcalls := c.host.calls_reregister (.stream member.stream.id) (tokenOfMember handle)
      (.onDemand member.hasOutput)
    split
    next => exact ⟨[], (List.append_nil _).symm, .refl _ c⟩
    next =>
      split
      next kind host heq =>
        rw [heq] at hcalls
        refine ⟨[(handle, kind)], rfl, fun other => ⟨Member.watch, ?_⟩, rfl, List.Sublist.refl _,
          _, hcalls, fun other kind' => ?_⟩
        · cases c.roster.get? other <;> simp
        · simp [tokenOfMember_inj]
      next host heq =>
        rw [heq] at hcalls
        refine ⟨[], (List.append_nil _).symm, fun other => ?_,
          Roster.order_modify h.roster handle _, List.nil_sublist _, _, hcalls, by simp⟩
        rw [modifyMember, Roster.get?_modify]
        by_cases hsame : other = handle
        · exact ⟨fun _ => .onDemand member.hasOutput, by rw [if_pos hsame]⟩
        · refine ⟨Member.watch, ?_⟩
          rw [if_neg hsame]
          cases c.roster.get? other <;> simp

theorem asked_foldl (h : Consistent c) (handles : List Handle) (failed : List (Handle × IoKind)) :
    ∃ refused, (handles.foldl watchMember (c, failed)).2 = failed ++ refused ∧
      Asked handles c (handles.foldl watchMember (c, failed)).1 refused := by
  induction handles generalizing c failed with
  | nil => exact ⟨[], (List.append_nil _).symm, .refl _ c⟩
  | cons handle handles ih =>
      obtain ⟨first, hfirst, hasked⟩ := asked_watchMember h failed handle
      have hafter := h.calm (calm_watchMember (p := nobody) c failed handle)
      rcases hresult : watchMember (c, failed) handle with ⟨c', failed'⟩
      rw [hresult] at hfirst hasked hafter
      obtain ⟨rest, hrest, hasked'⟩ := ih hafter failed'
      rw [List.foldl_cons, hresult]
      refine ⟨first ++ rest, ?_, hasked.trans hasked'⟩
      rw [hrest, show failed' = failed ++ first from hfirst, List.append_assoc]

/-- Every member is asked for. -/
theorem asked_askEach (h : Consistent c) :
    Asked c.roster.order c (c.askEach c.roster.order).1 (c.askEach c.roster.order).2 := by
  obtain ⟨refused, hrefused, hasked⟩ := asked_foldl h c.roster.order []
  rw [List.nil_append] at hrefused
  exact (show (c.askEach c.roster.order).2 = refused from hrefused).symm ▸ hasked

/-- Whoever the poller refuses is dismissed, and nobody else. -/
theorem parted_refusals (h : Consistent c) :
    Parted (c.askEach c.roster.order).1 c.refusals := by
  have hasked := asked_askEach h
  have hafter : Consistent (c.askEach c.roster.order).1 :=
    h.calm (calm_watchEach (p := nobody) c c.roster.order [])
  refine parted hafter ?_
  rw [hasked.order, refusals, List.map_map]
  exact hasked.once

end Coordinator
end Rendezvous
