import Rendezvous.Proofs.Coordinator.Flow

/-!
# Rendezvous.Proofs.Coordinator.Balance

**The books of a coordinator balance.** For every member that is attached, what its stream
has carried and the frames of the messages that are still queued are together the frames of
all messages ever queued for it, in order. The equation is `BalancedBut.bytes`, and the other
fields say what else has to hold for a stage to keep it.

Only a write that fails upsets the books, and only those of the member written to. It is
`spared` until it is dismissed, which happens before anything else.

* `BalancedBut.queued`, `.moved` and `.admitted` keep the books through the three kinds of
  stage, and `BalancedBut.still` through all others.
* `Balanced.iterate` is what follows for an iteration, also for one that fails.
* `Run.balanced` is what follows for a run.
-/

namespace Rendezvous
namespace Coordinator
namespace Ledger

/-- The books balance, but for those who are spared. -/
structure BalancedBut (spared : Handle → Prop) (l : Ledger) : Prop where
  roster : l.coordinator.roster.WellFormed
  distinct : Distinct l.coordinator
  unwritten : l.coordinator.host.Unwritten
  bytes : ∀ {handle member}, l.coordinator.roster.get? handle = some member → ¬ spared handle →
    member.stream.carried l.coordinator.host ++ frames (l.coordinator.roster.pending handle) =
      frames (l.enqueued handle)
  encodes : ∀ {handle msg}, msg ∈ l.enqueued handle → ∃ frame, msg.encode = .ok frame
  whole : ∀ {handle tail}, tail ∈ l.tails handle → tail = []

/-- The books balance. -/
abbrev Balanced (l : Ledger) : Prop := BalancedBut (fun _ => False) l

variable {l : Ledger} {c : Coordinator} {spared : Handle → Prop}

/-! ### One stage -/

theorem enter_nil (l : Ledger) : l.enter [] = l := by
  simp [enter]

/-- Whoever has been attached all along keeps the page. -/
theorem enqueued_next {handle : Handle} {member : Member}
    (hget : l.coordinator.roster.get? handle = some member) :
    (l.next c).enqueued handle = l.enqueued handle := by
  simp [next, hget]

theorem mem_enqueued_next {handle : Handle} {msg : Message}
    (h : msg ∈ (l.next c).enqueued handle) : msg ∈ l.enqueued handle := by
  simp only [next] at h
  split at h
  · exact h
  · cases h

/-- What is noted as in flight was so while the queue of a member got shorter. -/
theorem mem_newTail {before after : Coordinator} {handle : Handle} {tail : Bytes}
    (h : tail ∈ newTail before after handle) :
    ∃ member member', before.roster.get? handle = some member ∧
      after.roster.get? handle = some member' ∧
        (after.roster.pending handle).length < (before.roster.pending handle).length ∧
          tail = member.stream.inFlight := by
  unfold newTail at h
  split at h
  next member member' hbefore hafter =>
    split at h
    next hshort => exact ⟨member, member', hbefore, hafter, hshort, List.mem_singleton.1 h⟩
    next => cases h
  next => cases h

/-- Nothing is noted that is in flight, as long as whoever loses a message has nothing in
flight. -/
theorem BalancedBut.whole_next (h : l.BalancedBut spared)
    (hwhole : ∀ {handle member member'}, l.coordinator.roster.get? handle = some member →
      c.roster.get? handle = some member' →
        (c.roster.pending handle).length < (l.coordinator.roster.pending handle).length →
          member.stream.inFlight = [])
    {handle : Handle} {tail : Bytes} (htail : tail ∈ (l.next c).tails handle) : tail = [] := by
  rcases List.mem_append.1 htail with htail | htail
  · exact h.whole htail
  · obtain ⟨member, member', hbefore, hafter, hshort, rfl⟩ := mem_newTail htail
    exact hwhole hbefore hafter hshort

theorem BalancedBut.queued (h : l.BalancedBut spared) {mail : List (Handle × Message)}
    (hqueued : Queued mail l.coordinator c)
    (hmail : ∀ item ∈ mail, ∃ frame, item.2.encode = .ok frame) :
    ((l.next c).enter mail).BalancedBut spared where
  roster := hqueued.roster h.roster
  distinct := h.distinct.mono (fun hafter =>
    let ⟨member, hbefore, hstream, _⟩ := hqueued.members hafter
    ⟨member, hbefore, hstream⟩) hqueued.streams
  unwritten := h.unwritten.mono hqueued.streams fun id _ => hqueued.accepted id
  bytes := by
    intro handle member' hafter hspared
    obtain ⟨member, hbefore, hstream, hflight, hpending⟩ := hqueued.members hafter
    have hcarried := FramedStream.carried_congr hstream hflight (hqueued.accepted _)
    have hpage : ((l.next c).enter mail).enqueued handle =
        l.enqueued handle ++ mailFor handle mail :=
      congrArg (· ++ mailFor handle mail) (enqueued_next hbefore)
    rw [coordinator_enter, coordinator_next, hcarried, hpending, hpage, frames_append,
      frames_append, ← List.append_assoc, h.bytes hbefore hspared]
  encodes := by
    intro handle msg hmsg
    rcases List.mem_append.1 hmsg with hmsg | hmsg
    · exact h.encodes (mem_enqueued_next hmsg)
    · obtain ⟨item, hitem, rfl⟩ := List.mem_map.1 hmsg
      exact hmail item (List.mem_of_mem_filter hitem)
  whole := by
    refine h.whole_next fun hbefore hafter hshort => ?_
    obtain ⟨-, -, -, -, hpending⟩ := hqueued.members hafter
    rw [hpending, List.length_append] at hshort
    omega

theorem BalancedBut.still (h : l.BalancedBut spared) (hstill : Still l.coordinator c) :
    (l.next c).BalancedBut spared := by
  have hnext := h.queued hstill (by simp)
  rwa [enter_nil] at hnext

/-- A write upsets at most the books of the member written to. -/
theorem Balanced.moved (h : l.Balanced) {handle : Handle} {failed : Prop}
    (hmoved : Moved handle failed l.coordinator c) :
    (l.next c).BalancedBut fun other => other = handle ∧ failed where
  roster := hmoved.roster h.roster
  distinct := by
    refine h.distinct.mono (fun {other member'} hafter => ?_) hmoved.streams
    by_cases hsame : other = handle
    · subst hsame
      obtain ⟨member, hbefore, hstream, -⟩ := hmoved.member hafter
      exact ⟨member, hbefore, hstream⟩
    · obtain ⟨member, hbefore, hstream, -⟩ := hmoved.others hsame hafter
      exact ⟨member, hbefore, hstream⟩
  unwritten := by
    -- Nobody writes to a stream that waits to be accepted or is still to come.
    refine h.unwritten.mono hmoved.streams fun id hid => hmoved.accepted fun hget heq => ?_
    subst heq
    rcases hid with hwaiting | hlength
    · exact h.distinct.attached hget hwaiting
    · exact absurd (h.distinct.known hget) (Nat.not_lt.2 hlength)
  bytes := by
    intro other member' hafter hspared
    by_cases hsame : other = handle
    · subst hsame
      obtain ⟨member, hbefore, hstream, hcarried, -⟩ := hmoved.member hafter
      rw [enqueued_next hbefore, ← h.bytes hbefore not_false]
      exact hcarried fun hfailed => hspared ⟨rfl, hfailed⟩
    · obtain ⟨member, hbefore, hstream, hflight, hpending⟩ := hmoved.others hsame hafter
      have hcarried := FramedStream.carried_congr hstream hflight
        (hmoved.accepted fun hget heq => hsame (h.distinct.apart hbefore hget heq))
      rw [enqueued_next hbefore, coordinator_next, hcarried, hpending, h.bytes hbefore not_false]
  encodes := fun hmsg => h.encodes (mem_enqueued_next hmsg)
  whole := by
    refine h.whole_next fun {other _ _} hbefore hafter hshort => ?_
    by_cases hsame : other = handle
    · subst hsame
      obtain ⟨member, hmember, -, -, hwhole⟩ := hmoved.member hafter
      obtain rfl := Option.some.inj (hbefore.symm.trans hmember)
      exact hwhole hshort
    · obtain ⟨-, -, -, -, hpending⟩ := hmoved.others hsame hafter
      rw [hpending] at hshort
      exact absurd hshort (Nat.lt_irrefl _)

/-- Whoever is attached starts with a clean page, over a stream that has accepted nothing. -/
theorem Balanced.admitted (h : l.Balanced) (hadmitted : Admitted l.coordinator c)
    (hroster : c.roster.WellFormed) (hdistinct : Distinct c) : (l.next c).Balanced where
  roster := hroster
  distinct := hdistinct
  unwritten := h.unwritten.mono hadmitted.streams fun id _ => hadmitted.accepted id
  bytes := by
    intro handle member' hafter _
    rcases hadmitted.members hafter with ⟨hbefore, hpending⟩ | ⟨hnone, hwaiting, hflight, hpending⟩
    · have hcarried := FramedStream.carried_congr rfl rfl (hadmitted.accepted member'.stream.id)
      rw [enqueued_next hbefore, coordinator_next, hcarried, hpending, h.bytes hbefore not_false]
    · have hclean := (hadmitted.accepted _).trans (h.unwritten _ (.inl hwaiting))
      simp [next, FramedStream.carried, hnone, hflight, hpending, hclean]
  encodes := fun hmsg => h.encodes (mem_enqueued_next hmsg)
  whole := by
    refine h.whole_next fun hbefore hafter hshort => ?_
    rcases hadmitted.members hafter with ⟨-, hpending⟩ | ⟨hnone, -⟩
    · rw [hpending] at hshort
      exact absurd hshort (Nat.lt_irrefl _)
    · rw [hnone] at hbefore
      cases hbefore

/-- Who is spared need not be any more once they are gone. -/
theorem BalancedBut.balanced (h : l.BalancedBut spared)
    (hgone : ∀ handle, spared handle → l.coordinator.roster.get? handle = none) : l.Balanced where
  roster := h.roster
  distinct := h.distinct
  unwritten := h.unwritten
  bytes := by
    intro handle member hget _
    refine h.bytes hget fun hspared => ?_
    rw [hgone handle hspared] at hget
    cases hget
  encodes := h.encodes
  whole := h.whole

theorem BalancedBut.weaken (h : l.BalancedBut spared) {spared' : Handle → Prop}
    (himp : ∀ handle, spared handle → spared' handle) : l.BalancedBut spared' :=
  { h with bytes := fun hget hspared => h.bytes hget (hspared ∘ himp _) }

/-! ### One iteration -/

/-- Every reply has a frame. -/
theorem exists_encode_of_mem_replies {handle : Handle} {msg : Message} {item : Handle × Message}
    (h : item ∈ c.replies handle msg) : ∃ frame, item.2.encode = .ok frame := by
  cases msg with
  | connect entry =>
      obtain ⟨entries, hlist, hlength⟩ := Roster.mem_mail h
      obtain ⟨hcountable, hfits⟩ := Message.peersToConnect_fits hlength
      obtain ⟨frame, hframe, -⟩ := Message.encode_of_fits_capacity hcountable hfits
      exact ⟨frame, hlist ▸ hframe⟩
  | _ => cases h

theorem Balanced.act (h : l.Balanced) (handle : Handle) (msg : Message) :
    (act handle l msg).Balanced :=
  h.queued (queued_actOnControl h.roster handle msg) fun _ => exists_encode_of_mem_replies

theorem Balanced.actOnDecoded (h : l.Balanced) (handle : Handle) :
    (l.actOnDecoded handle).Balanced := by
  have hcleared := h.still (c := { l.coordinator with decoded := [] })
    (.of_roster_eq rfl (.refl _) (.refl _))
  exact List.foldlRecOn _ _ hcleared fun _ h' msg _ => h'.act handle msg

theorem Balanced.readMember (h : l.Balanced) {handle : Handle} {member : Member}
    (hget : l.coordinator.roster.get? handle = some member) (now : Instant) :
    (l.readMember handle member now).1.Balanced :=
  Balanced.actOnDecoded (h.still (still_gather hget now)) handle

theorem Balanced.writeMember (h : l.Balanced) (handle : Handle) :
    (l.writeMember handle).1.BalancedBut fun other =>
      other = handle ∧ (l.writeMember handle).2 ≠ none :=
  h.moved (moved_writeMember h.roster handle)

theorem Balanced.serveMember (h : l.Balanced) (handle : Handle) (now : Instant) :
    (l.serveMember handle now).1.BalancedBut fun other =>
      other = handle ∧ (l.serveMember handle now).2 ≠ none := by
  unfold Ledger.serveMember
  split
  next => exact h.weaken nofun
  next member hget =>
    split
    next =>
      have hread := h.readMember hget now
      rcases hresult : l.readMember handle member now with ⟨l', failure⟩
      rw [hresult] at hread
      cases failure with
      | none => exact hread.writeMember handle
      | some e => exact hread.weaken nofun
    next => exact h.writeMember handle

/-- Whoever's books were upset is dismissed at once. -/
theorem Balanced.serveOrDismiss (h : l.Balanced) (now : Instant) (handle : Handle) :
    (serveOrDismiss now l handle).Balanced := by
  have hserved := h.serveMember handle now
  unfold Ledger.serveOrDismiss
  rcases hresult : l.serveMember handle now with ⟨l', failure⟩
  rw [hresult] at hserved
  cases failure with
  | none => exact hserved.weaken fun _ hspared => hspared.2 rfl
  | some e =>
      refine (hserved.still (still_dismiss hserved.roster handle (.channel e))).balanced ?_
      rintro other ⟨rfl, -⟩
      rw [coordinator_next, get?_dismiss hserved.roster, if_pos rfl]

theorem Balanced.serveMembers (h : l.Balanced) (now : Instant) :
    (l.serveMembers now).Balanced :=
  List.foldlRecOn _ _ h fun _ h' handle _ => h'.serveOrDismiss now handle

theorem Balanced.serve (h : l.Balanced) (lag : Duration) : (l.serve lag).state.Balanced := by
  have haccepted := acceptOne_attached h.roster h.distinct l.coordinator.host.clock
  refine Stage.andThen_induction (motive := Ledger.Balanced) ?_ fun l' h' => ?_
  · exact h.admitted (acceptOne_admitted h.roster _) haccepted.roster haccepted.distinct
  · have hserved := h'.serveMembers l.coordinator.host.clock
    refine Stage.andThen_induction (motive := Ledger.Balanced) ?_ fun l'' h'' => ?_
    · exact hserved.still (still_servePackets _)
    · have hlate := h''.still (c := l''.coordinator.elapse lag)
        (.of_roster_eq rfl (.of_calls_eq rfl) (SameStreams.more ⟨rfl, rfl⟩))
      have hidle := hlate.still
        (still_dismissIdle hlate.roster (l''.coordinator.elapse lag).host.clock)
      exact hidle.still (.of_roster_eq rfl (.refl _) (.refl _))

theorem Balanced.pollAndServe (h : l.Balanced) (turn : Turn) :
    (l.pollAndServe turn).state.Balanced := by
  have hpoll := still_poll l.coordinator (l.coordinator.waitTime l.coordinator.host.clock) turn
  unfold Ledger.pollAndServe
  split
  next heq => rw [heq] at hpoll; exact h.still hpoll
  next heq => rw [heq] at hpoll; exact h.still hpoll
  next events host heq =>
    rw [heq] at hpoll
    have hlatched := hpoll.trans
      (.foldl (fun event _ => still_latch _ event) (hpoll.roster h.roster) events)
    exact Balanced.serve (h.still hlatched) turn.lag

/-- An iteration keeps the books balanced, even if it fails. -/
theorem Balanced.iterate (h : l.Balanced) (turn : Turn) : (l.iterate turn).state.Balanced := by
  have hsupplied := h.still (still_supply l.coordinator turn.supply)
  refine Stage.andThen_induction (motive := Ledger.Balanced) ?_ fun l' h' => h'.pollAndServe turn
  exact hsupplied.still (still_watchSources hsupplied.roster)

/-! ### The whole loop -/

theorem balanced_first {config : CoordinatorConfig} {host : Host} (horderly : host.Orderly)
    (hunwritten : host.Unwritten) (h : Coordinator.start config host = .ok c) :
    (first c).Balanced := by
  obtain ⟨hroster, hstreams, -, hcalls⟩ := start_ok h
  refine ⟨hroster ▸ Roster.wellFormed_empty, .start horderly h, ?_, ?_, nofun, nofun⟩
  · refine hunwritten.mono hstreams.more fun id _ => ?_
    rw [show (first c).coordinator.host.calls = _ from hcalls, accepted_append]
    exact List.append_nil _
  · intro handle member hget
    simp [first, get?_start h] at hget

/-- The books balance at the head of the loop. -/
theorem Run.balanced {config : CoordinatorConfig} {host : Host} (horderly : host.Orderly)
    (hunwritten : host.Unwritten) (h : Run config host l) : l.Balanced := by
  induction h with
  | start h => exact balanced_first horderly hunwritten h
  | iterate turn _ _ ih => exact ih.iterate turn

end Ledger
end Coordinator
end Rendezvous
