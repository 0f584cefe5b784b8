import Rendezvous.Proofs.Channel.Receivable
import Rendezvous.Proofs.Coordinator.Isolation
import Rendezvous.Proofs.Coordinator.Pieces

/-!
# Rendezvous.Proofs.Coordinator.Receivable

**All that a coordinator sends can be received.** What it queues for its members are lists
that fit a receive buffer (`Listed`), so whatever a stream has accepted is the beginning of a
row of frames of such lists (`Sendable.accepted`), also if the connection was lost in the
middle of one.

* `Piece.flow` sorts the pieces of an iteration by what they do to what goes out.
* `Work.listed` and `Work.sendable` are the two invariants of any work.
* `garbledBy_of_serveMember`: serving a member fails of the protocol only with what is read.
-/

namespace Rendezvous
namespace Coordinator

variable {a b c c' : Coordinator} {done : List Dispatch} {handle : Handle} {member : Member}
  {host : Host}

/-! ### Writing -/

/-- A write takes at most a message off the queue of a member. -/
theorem pending_writeMember_suffix (hwf : c.roster.WellFormed) (handle other : Handle) :
    (c.writeMember handle).1.roster.pending other <:+ c.roster.pending other := by
  have hrest := Roster.pending_takeNext hwf handle other
  have htaken : (c.roster.takeNext handle).2.pending other <:+ c.roster.pending other := by
    rw [hrest]
    split
    · exact List.tail_suffix _
    · exact List.suffix_rfl
  unfold writeMember
  split
  next => exact List.suffix_rfl
  next member _ =>
    split
    next => exact List.suffix_rfl
    next =>
      split
      next =>
        have hsettled := pending_settleWrite c handle (member.stream.resume c.host) other
        unfold continueWrite
        simp only
        split <;> exact hsettled ▸ List.suffix_rfl
      next =>
        unfold writeNext
        rcases hresult : c.roster.takeNext handle with ⟨_ | msg, roster⟩ <;> rw [hresult] at htaken
        · have hcleared := roster.pending_modify handle other
            (f := fun member => { member with latch := member.latch.withoutWrite }) fun _ => rfl
          exact hcleared ▸ htaken
        · simp only
          split
          · rw [pending_settleWrite]
            exact htaken
          · rw [(alike_countSent _ _ _).roster, pending_settleWrite]
            exact htaken

/-- Whatever comes of a write, the stream takes the beginning of what there is to be written. -/
theorem accepted_writeMember_prefix (hwf : c.roster.WellFormed)
    (hget : c.roster.get? handle = some member) :
    accepted member.stream.id (c.writeMember handle).1.host.calls <+:
      member.stream.carried c.host ++ frames (c.roster.pending handle) := by
  have hnothing : accepted member.stream.id c.host.calls <+:
      member.stream.carried c.host ++ frames (c.roster.pending handle) :=
    (List.prefix_append ..).trans (List.prefix_append ..)
  have hsettled (c : Coordinator) (written : FramedStream.Written) :
      (c.settleWrite handle written).host = written.host := (settleWrite_frame c handle written).2.1
  unfold writeMember
  rw [hget]
  simp only
  split
  next => exact hnothing
  next =>
    split
    next =>
      have hresumed := (member.stream.accepted_resume_prefix c.host).trans
        (List.prefix_append _ (frames (c.roster.pending handle)))
      unfold continueWrite
      simp only
      split <;> rwa [hsettled]
    next hflight =>
      have hempty : member.stream.inFlight = [] := by
        simpa [FramedStream.hasInFlight] using hflight
      unfold writeNext
      have hfirst := Roster.fst_takeNext hwf handle
      rcases htaken : c.roster.takeNext handle with ⟨_ | msg, roster⟩
      · exact hnothing
      · rw [htaken] at hfirst
        obtain ⟨rest, hpending⟩ : ∃ rest, c.roster.pending handle = msg :: rest :=
          List.head?_eq_some_iff.1 hfirst.symm
        have htransmitted := (member.stream.accepted_transmit_prefix msg c.scratch c.host
          hempty).trans (List.prefix_append _ (frames rest))
        rw [List.append_assoc, ← frames_cons, ← hpending] at htransmitted
        simp only
        split
        · rwa [hsettled]
        · rwa [(alike_countSent _ _ _).calls, hsettled]

/-- What a piece does to what goes out, unless it leaves it alone. -/
theorem Piece.flow (hpiece : Piece c c') (hwf : c.roster.WellFormed) :
    Still c c' ∨ (∃ now, c' = (c.acceptOne now).state) ∨
      (∃ handle, (c.writeMember handle).2 = none ∧ c' = (c.writeMember handle).1) ∨
        ∃ handle e, (c.writeMember handle).2 = some e ∧
          c' = (c.writeMember handle).1.dismiss handle (.channel e) := by
  cases hpiece with
  | supply supply => exact .inl (still_supply c supply)
  | watchPackets => exact .inl (still_watchPackets c)
  | watchMember failed handle => exact .inl (still_watchMember c failed handle)
  | poll timeout turn => exact .inl (still_poll c timeout turn)
  | latch event => exact .inl (still_latch c event)
  | accept now => exact .inr (.inl ⟨now, rfl⟩)
  | read now present _ =>
      exact .inl ((still_gather present now).trans (.of_roster_eq rfl (.refl _) (.refl _)))
  | lose e present _ =>
      have hrefilled := (still_refilled present).trans
        (c := { c.refilled _ _ with decoded := [] }) (.of_roster_eq rfl (.refl _) (.refl _))
      exact .inl (hrefilled.trans (still_dismiss (hrefilled.roster hwf) _ _))
  | write fine => exact .inr (.inr (.inl ⟨_, fine, rfl⟩))
  | abort failed => exact .inr (.inr (.inr ⟨_, _, failed, rfl⟩))
  | dismiss handle departure => exact .inl (still_dismiss hwf handle departure)
  | receive => exact .inl (still_receivePacket c)
  | send => exact .inl (still_sendPacket c)
  | elapse lag =>
      exact .inl (.of_roster_eq rfl (.of_calls_eq rfl) (SameStreams.more ⟨rfl, rfl⟩))
  | release level => exact .inl (.of_roster_eq rfl (.refl _) (.refl _))

/-! ### What is queued -/

/-- All that is queued for members are lists that can be received. -/
def Listed (c : Coordinator) : Prop :=
  ∀ handle, ∀ msg ∈ c.roster.pending handle, msg.Listing

namespace Listed

/-- Nothing is queued for whoever is not attached, so that only members count. -/
theorem of_members (h : ∀ {handle member}, c.roster.get? handle = some member →
    ∀ msg ∈ c.roster.pending handle, msg.Listing) : Listed c := by
  intro handle msg hmsg
  cases hget : c.roster.get? handle with
  | none =>
      rw [Roster.pending_of_absent hget] at hmsg
      cases hmsg
  | some member => exact h hget msg hmsg

theorem queued (h : Listed c) {mail : List (Handle × Message)} (hqueued : Queued mail c c')
    (hmail : ∀ item ∈ mail, item.2.Listing) : Listed c' := by
  refine .of_members fun {handle _} hget => ?_
  obtain ⟨-, -, -, -, hpending⟩ := hqueued.members hget
  rw [hpending]
  refine List.forall_mem_append.2 ⟨h handle, fun msg hmsg => ?_⟩
  obtain ⟨item, hitem, rfl⟩ := List.mem_map.1 hmsg
  exact hmail item (List.mem_of_mem_filter hitem)

theorem still (h : Listed c) (hstill : Still c c') : Listed c' := h.queued hstill nofun

theorem writeMember (h : Listed c) (hwf : c.roster.WellFormed) (handle : Handle) :
    Listed (c.writeMember handle).1 := fun other msg hmsg =>
  h other msg ((pending_writeMember_suffix hwf handle other).subset hmsg)

theorem piece (h : Listed c) (hc : Consistent c) (hpiece : Piece c c') : Listed c' := by
  rcases hpiece.flow hc.roster with
    hstill | ⟨now, rfl⟩ | ⟨handle, -, rfl⟩ | ⟨handle, e, -, rfl⟩
  · exact h.still hstill
  · refine .of_members fun {handle _} hget => ?_
    rcases (acceptOne_admitted hc.roster now).members hget with ⟨-, hsame⟩ | ⟨-, -, -, hempty⟩
    · exact hsame ▸ h handle
    · rw [hempty]
      exact nofun
  · exact h.writeMember hc.roster handle
  · have hwf := (hc.calm (calm_writeMember (p := nobody) c handle)).roster
    exact (h.writeMember hc.roster handle).still (still_dismiss hwf handle _)

/-- The replies to a message are such lists. -/
theorem listing_of_mem_replies {msg : Message} {item : Handle × Message}
    (h : item ∈ c.replies handle msg) : item.2.Listing := by
  cases msg with
  | connect entry =>
      obtain ⟨entries, hlist, hlength⟩ := Roster.mem_mail h
      exact hlist ▸ listing_of_length hlength
  | _ => cases h

theorem act (h : Listed c) (hc : Consistent c) (handle : Handle) (msg : Message) :
    Listed (c.actOnControl handle msg) :=
  h.queued (queued_actOnControl hc.roster handle msg) fun _ => listing_of_mem_replies

end Listed

theorem Work.listed (h : Work a done c) (ha : Consistent a) (hlisted : Listed a) : Listed c :=
  h.consistent_induction ha hlisted (fun hc hpiece h => h.piece hc hpiece)
    fun handle msg hc h => h.act hc handle msg

/-- Nothing is queued at the start. -/
theorem listed_start {config : CoordinatorConfig} (h : Coordinator.start config host = .ok c) :
    Listed c :=
  .of_members fun hget => by
    rw [get?_start h] at hget
    cases hget

/-! ### What has gone out -/

/-- The beginning of a row of frames of lists that can be received. -/
def Opening (bytes : Bytes) : Prop :=
  ∃ msgs : List Message, (∀ msg ∈ msgs, msg.Listing) ∧ bytes <+: frames msgs

/-- What a stream has accepted since the beginning is the beginning of a row of frames of lists.
What is in flight and what is queued for a member continue that row, unless the member is
spared, as it is between a write that fails and its dismissal. -/
structure SendableBut (start : Host) (spared : Handle → Prop) (c : Coordinator) : Prop where
  distinct : Distinct c
  unwritten : c.host.Unwritten
  listed : Listed c
  members : ∀ {handle member}, c.roster.get? handle = some member → ¬ spared handle →
    ∃ msgs : List Message, (∀ msg ∈ msgs, msg.Listing) ∧
      member.stream.carried c.host ++ frames (c.roster.pending handle) = frames msgs
  accepted : ∀ id, accepted id start.calls = [] → Opening (accepted id c.host.calls)

/-- Nobody is spared. -/
abbrev Sendable (start : Host) (c : Coordinator) : Prop := SendableBut start (fun _ => False) c

variable {start : Host} {spared : Handle → Prop}

namespace SendableBut

theorem queued (h : SendableBut start spared c) {mail : List (Handle × Message)}
    (hqueued : Queued mail c c') (hmail : ∀ item ∈ mail, item.2.Listing) :
    SendableBut start spared c' where
  distinct := h.distinct.mono (fun hafter =>
    let ⟨member, hbefore, hstream, _⟩ := hqueued.members hafter
    ⟨member, hbefore, hstream⟩) hqueued.streams
  unwritten := h.unwritten.mono hqueued.streams fun id _ => hqueued.accepted id
  listed := h.listed.queued hqueued hmail
  members := by
    intro handle member' hafter hspared
    obtain ⟨member, hbefore, hstream, hflight, hpending⟩ := hqueued.members hafter
    obtain ⟨msgs, hmsgs, hcarried⟩ := h.members hbefore hspared
    refine ⟨msgs ++ mailFor handle mail, List.forall_mem_append.2 ⟨hmsgs, fun msg hmsg => ?_⟩, ?_⟩
    · obtain ⟨item, hitem, rfl⟩ := List.mem_map.1 hmsg
      exact hmail item (List.mem_of_mem_filter hitem)
    · rw [FramedStream.carried_congr hstream hflight (hqueued.accepted _), hpending,
        frames_append, frames_append, ← List.append_assoc, hcarried]
  accepted := fun id hclean => hqueued.accepted id ▸ h.accepted id hclean

theorem still (h : SendableBut start spared c) (hstill : Still c c') : SendableBut start spared c' :=
  h.queued hstill nofun

/-- Who is spared need not be any more once they are gone. -/
theorem sendable (h : SendableBut start spared c)
    (hgone : ∀ handle, spared handle → c.roster.get? handle = none) : Sendable start c :=
  { h with
    members := fun {handle _} hget _ => h.members hget fun hspared => by
      rw [hgone handle hspared] at hget
      cases hget }

end SendableBut

namespace Sendable

theorem admitted (h : Sendable start c) (hadmitted : Admitted c c') (hdistinct : Distinct c')
    (hlisted : Listed c') : Sendable start c' where
  distinct := hdistinct
  unwritten := h.unwritten.mono hadmitted.streams fun id _ => hadmitted.accepted id
  listed := hlisted
  members := by
    intro handle member' hafter hspared
    rcases hadmitted.members hafter with ⟨hbefore, hpending⟩ | ⟨-, hwaiting, hflight, hpending⟩
    · obtain ⟨msgs, hmsgs, hcarried⟩ := h.members hbefore hspared
      refine ⟨msgs, hmsgs, ?_⟩
      rw [FramedStream.carried_congr rfl rfl (hadmitted.accepted _), hpending, hcarried]
    · -- A stream that was just accepted has carried nothing yet.
      refine ⟨[], nofun, ?_⟩
      have hclean := (hadmitted.accepted _).trans (h.unwritten _ (.inl hwaiting))
      simp [FramedStream.carried, hflight, hpending, hclean]
  accepted := fun id hclean => hadmitted.accepted id ▸ h.accepted id hclean

/-- A write leaves at most the member that was written to to be spared. -/
theorem writeMember (h : Sendable start c) (hwf : c.roster.WellFormed) (handle : Handle) :
    SendableBut start (fun other => other = handle ∧ (c.writeMember handle).2 ≠ none)
      (c.writeMember handle).1 := by
  have hmoved := moved_writeMember hwf handle
  have hothers {id : StreamId}
      (hother : ∀ {member}, c.roster.get? handle = some member → id ≠ member.stream.id) :
      accepted id (c.writeMember handle).1.host.calls = accepted id c.host.calls :=
    hmoved.accepted hother
  refine ⟨?_, ?_, h.listed.writeMember hwf handle, ?_, fun id hclean => ?_⟩
  · refine h.distinct.mono (fun {other member'} hafter => ?_) hmoved.streams
    by_cases hsame : other = handle
    · subst hsame
      obtain ⟨member, hbefore, hstream, -⟩ := hmoved.member hafter
      exact ⟨member, hbefore, hstream⟩
    · obtain ⟨member, hbefore, hstream, -⟩ := hmoved.others hsame hafter
      exact ⟨member, hbefore, hstream⟩
  · refine h.unwritten.mono hmoved.streams fun id hid => hothers fun hget heq => ?_
    subst heq
    rcases hid with hwaiting | hlength
    · exact h.distinct.attached hget hwaiting
    · exact absurd (h.distinct.known hget) (Nat.not_lt.2 hlength)
  · intro other member' hafter hspared
    by_cases hsame : other = handle
    · subst hsame
      obtain ⟨member, hbefore, -, hcarried, -⟩ := hmoved.member hafter
      rw [hcarried fun hfailed => hspared ⟨rfl, hfailed⟩]
      exact h.members hbefore not_false
    · obtain ⟨member, hbefore, hstream, hflight, hpending⟩ := hmoved.others hsame hafter
      rw [FramedStream.carried_congr hstream hflight
        (hothers fun hget heq => hsame (h.distinct.apart hbefore hget heq)), hpending]
      exact h.members hbefore not_false
  · -- Also a write that fails takes no more than the beginning of what was to be written.
    by_cases hwritten : ∃ member, c.roster.get? handle = some member ∧ member.stream.id = id
    · obtain ⟨member, hget, rfl⟩ := hwritten
      obtain ⟨msgs, hmsgs, hcarried⟩ := h.members hget not_false
      exact ⟨msgs, hmsgs, hcarried ▸ accepted_writeMember_prefix hwf hget⟩
    · rw [hothers fun {member} hget heq => hwritten ⟨member, hget, heq.symm⟩]
      exact h.accepted id hclean

theorem piece (h : Sendable start c) (hc : Consistent c) (hpiece : Piece c c') : Sendable start c' := by
  have hlisted := h.listed.piece hc hpiece
  rcases hpiece.flow hc.roster with
    hstill | ⟨now, rfl⟩ | ⟨handle, hfine, rfl⟩ | ⟨handle, e, hfailed, rfl⟩
  · exact h.still hstill
  · exact h.admitted (acceptOne_admitted hc.roster now)
      (acceptOne_attached hc.roster h.distinct now).distinct hlisted
  · exact (h.writeMember hc.roster handle).sendable fun other hspared => absurd hfine hspared.2
  · -- The member that a failing write leaves spared is dismissed at once.
    have hwf := (hc.calm (calm_writeMember (p := nobody) c handle)).roster
    refine ((h.writeMember hc.roster handle).still (still_dismiss hwf handle _)).sendable ?_
    rintro other ⟨rfl, -⟩
    rw [get?_dismiss hwf, if_pos rfl]

theorem act (h : Sendable start c) (hc : Consistent c) (handle : Handle) (msg : Message) :
    Sendable start (c.actOnControl handle msg) :=
  h.queued (queued_actOnControl hc.roster handle msg) fun _ => Listed.listing_of_mem_replies

end Sendable

theorem Work.sendable (h : Work a done c) (ha : Consistent a) (hsendable : Sendable start a) :
    Sendable start c :=
  h.consistent_induction ha hsendable (fun hc hpiece h => h.piece hc hpiece)
    fun handle msg hc h => h.act hc handle msg

theorem sendable_start {config : CoordinatorConfig} (horderly : host.Orderly)
    (hunwritten : host.Unwritten) (h : Coordinator.start config host = .ok c) :
    Sendable host c := by
  obtain ⟨-, hstreams, -, hcalls⟩ := start_ok h
  have hsame (id : StreamId) : accepted id c.host.calls = accepted id host.calls := by
    rw [hcalls, accepted_append]
    exact List.append_nil _
  refine ⟨.start horderly h, hunwritten.mono hstreams.more fun id _ => hsame id, listed_start h,
    fun hget => ?_, fun id hclean => ⟨[], nofun, by rw [hsame, hclean]; exact List.nil_prefix⟩⟩
  rw [get?_start h] at hget
  cases hget

/-! ### What serving fails of -/

theorem writeMember_ne_protocol (h : Consistent c) (handle : Handle) (e : CodecError) :
    (c.writeMember handle).2 ≠ some (.protocol e) := by
  unfold writeMember
  split
  next => exact nofun
  next member _ =>
    split
    next => exact nofun
    next =>
      split
      next =>
        have hresume := member.stream.resume_ne_protocol c.host e
        unfold continueWrite
        simp only
        split
        next failure heq => rw [heq] at hresume; simpa using hresume
        next => exact nofun
      next =>
        unfold writeNext
        rcases htaken : c.roster.takeNext handle with ⟨_ | msg, roster⟩
        · exact nofun
        · obtain ⟨frame, hframe⟩ := encode_of_takeNext h.encodable htaken
          have htransmit := FramedStream.transmit_ne_protocol hframe member.stream c.scratch
            c.host e
          simp only
          split
          next failure heq => rw [heq] at htransmit; simpa using htransmit
          next => exact nofun

/-- Serving a member fails of the protocol only with a frame that was read. -/
theorem garbledBy_of_serveMember (h : Consistent c) {now : Instant} {e : CodecError}
    (hfailed : (c.serveMember handle now).2 = some (.protocol e)) :
    ∃ member, c.roster.get? handle = some member ∧ member.stream.GarbledBy c.host e := by
  unfold serveMember at hfailed
  cases hget : c.roster.get? handle with
  | none => simp [hget] at hfailed
  | some member =>
      refine ⟨member, rfl, ?_⟩
      simp only [hget] at hfailed
      split at hfailed
      next =>
        rw [readMember_eq_gather] at hfailed
        rcases gather_cases (p := nobody) c handle member now with
          ⟨e', hreceive, hgather⟩ | ⟨-, hnone, -⟩
        · simp only [hgather] at hfailed
          cases hfailed
          exact FramedStream.garbledBy_of_receive hreceive
        · have hread := h.readMember hget now
          rw [readMember_eq_gather] at hread
          simp only [hnone] at hfailed hread
          exact absurd hfailed (writeMember_ne_protocol hread handle e)
      next => exact absurd hfailed (writeMember_ne_protocol h handle e)

/-- The loop itself never stops for want of a frame. -/
theorem iterate_ne_protocol (h : Consistent c) (turn : Turn) (e : CodecError) :
    (c.iterate turn).failure ≠ some (.channel (.protocol e)) := by
  intro hfailed
  rcases iterate_blames h turn with ⟨kind, -, hpoll⟩ | hblames
  · cases hpoll.symm.trans hfailed
  · obtain ⟨new, -, call, -, hcall⟩ := hblames _ hfailed
    unfold Call.stops at hcall
    split at hcall <;> cases hcall

end Coordinator
end Rendezvous
