import Rendezvous.Proofs.Channel.Output
import Rendezvous.Proofs.Coordinator.Ledger

/-!
# Rendezvous.Proofs.Coordinator.Flow

**What each stage of a coordinator's loop does to what goes out.** On its way to a
member a message is first in the member's queue and then, as bytes, in flight or accepted
by the member's stream. Most stages leave all of that alone (`Still`). The others come in
three kinds:

* `Queued` puts messages into queues: handling an announcement;
* `Moved` carries one member's output on: a write;
* `Admitted` may attach a connection over which nothing has gone yet: an accept.
-/

namespace Rendezvous
namespace Coordinator

/-- Between two states of a coordinator messages were put into queues, and nothing else
happened to what goes out. Members may have gone, and connections may have come into store. -/
structure Queued (mail : List (Handle × Message)) (c c' : Coordinator) : Prop where
  roster : c.roster.WellFormed → c'.roster.WellFormed
  members : ∀ {handle member'}, c'.roster.get? handle = some member' →
    ∃ member, c.roster.get? handle = some member ∧ member'.stream.id = member.stream.id ∧
      member'.stream.inFlight = member.stream.inFlight ∧
        c'.roster.pending handle = c.roster.pending handle ++ mailFor handle mail
  accepted : SameAccepted c.host c'.host
  streams : MoreStreams c.host c'.host

/-- Between two states of a coordinator nothing happened to what goes out. -/
abbrev Still (c c' : Coordinator) : Prop := Queued [] c c'

variable {c : Coordinator} {handle : Handle} {member : Member} {host : Host}

/-! ### Stages that leave output alone -/

theorem Still.trans {a b c : Coordinator} (hab : Still a b) (hbc : Still b c) : Still a c where
  roster := hbc.roster ∘ hab.roster
  members := by
    intro handle last hlast
    obtain ⟨middle, hmiddle, hstream, hflight, hpending⟩ := hbc.members hlast
    obtain ⟨first, hfirst, hstream', hflight', hpending'⟩ := hab.members hmiddle
    refine ⟨first, hfirst, hstream.trans hstream', hflight.trans hflight', ?_⟩
    rw [hpending, hpending']
    simp
  accepted := hab.accepted.trans hbc.accepted
  streams := hab.streams.trans hbc.streams

theorem Still.of_roster_eq {c c' : Coordinator} (hroster : c'.roster = c.roster)
    (haccepted : SameAccepted c.host c'.host) (hstreams : MoreStreams c.host c'.host) :
    Still c c' where
  roster := fun h => hroster ▸ h
  members := by
    intro handle member hget
    rw [hroster] at hget ⊢
    exact ⟨member, hget, rfl, rfl, by simp⟩
  accepted := haccepted
  streams := hstreams

theorem Alike.still {c c' : Coordinator} (h : Alike c c') : Still c c' :=
  .of_roster_eq h.roster (.of_calls_eq h.calls) h.streams.more

theorem Still.refl (c : Coordinator) : Still c c := (Alike.refl c).still

/-- What is done one by one leaves output alone if each piece does. -/
theorem Still.foldl {α : Type} {step : Coordinator → α → Coordinator}
    (hstep : ∀ {c : Coordinator} (x : α), c.roster.WellFormed → Still c (step c x))
    (hwf : c.roster.WellFormed) (xs : List α) : Still c (xs.foldl step c) := by
  induction xs generalizing c with
  | nil => exact .refl c
  | cons x xs ih =>
      have hfirst := hstep x hwf
      exact hfirst.trans (ih (hfirst.roster hwf))

/-- Changing something of a member that is not its output. -/
theorem still_modifyMember (c : Coordinator) (handle : Handle) {f : Member → Member}
    (hqueue : ∀ member, (f member).queue = member.queue)
    (hstream : ∀ member, c.roster.get? handle = some member →
      (f member).stream.id = member.stream.id ∧
        (f member).stream.inFlight = member.stream.inFlight) :
    Still c (c.modifyMember handle f) where
  roster := fun h => h.modify handle hqueue
  members := by
    intro other member' hafter
    have hpending : (c.modifyMember handle f).roster.pending other =
        c.roster.pending other ++ mailFor other [] := by
      rw [mailFor_nil, List.append_nil]
      exact c.roster.pending_modify handle other hqueue
    obtain ⟨member, hmember, ⟨-, rfl⟩ | ⟨rfl, rfl⟩⟩ := get?_of_modifyMember hafter
    · exact ⟨member', hmember, rfl, rfl, hpending⟩
    · exact ⟨member, hmember, (hstream member hmember).1, (hstream member hmember).2, hpending⟩
  accepted := .refl _
  streams := .refl _

theorem still_dismiss (hwf : c.roster.WellFormed) (handle : Handle) (departure : Departure) :
    Still c (c.dismiss handle departure) := by
  cases hget : c.roster.get? handle with
  | none =>
      rw [dismiss_of_absent hget]
      exact .refl c
  | some member =>
      obtain ⟨hroster, ⟨failure, hcalls⟩, hstreams, -⟩ := dismiss_frame hget departure
      refine ⟨fun _ => hroster ▸ hwf.detach handle, ?_, ?_, hstreams.more⟩
      · intro other member' hafter
        rw [hroster] at hafter ⊢
        obtain ⟨hne, hother⟩ := Roster.get?_of_detach hwf hafter
        refine ⟨member', hother, rfl, rfl, ?_⟩
        rw [Roster.pending_detach hwf, if_neg hne]
        simp
      · intro id
        rw [hcalls, accepted_snoc, accepted_snoc]
        simp [Call.acceptedBy]

/-! ### Before and after the poll -/

theorem still_supply (c : Coordinator) (supply : Supply) :
    Still c { c with host := c.host.supply supply } :=
  .of_roster_eq rfl (.of_calls_eq (c.host.calls_supply supply)) (moreStreams_supply c.host supply)

theorem still_watchPackets (c : Coordinator) : Still c c.watchPackets.state := by
  unfold watchPackets
  simp only
  split
  next => exact .refl c
  next =>
    split
    next heq =>
      exact .of_roster_eq rfl (sameAccepted_reregister heq) (sameStreams_reregister heq).more
    next heq =>
      exact .of_roster_eq rfl (sameAccepted_reregister heq) (sameStreams_reregister heq).more

theorem still_watchMember (c : Coordinator) (failed : List (Handle × IoKind)) (handle : Handle) :
    Still c (watchMember (c, failed) handle).1 := by
  unfold watchMember
  simp only
  split
  next => exact .refl c
  next member hget =>
    split
    next => exact .refl c
    next =>
      split
      next heq =>
        exact .of_roster_eq rfl (sameAccepted_reregister heq) (sameStreams_reregister heq).more
      next host heq =>
        have hasked : Still c { c with host := host } :=
          .of_roster_eq rfl (sameAccepted_reregister heq) (sameStreams_reregister heq).more
        exact hasked.trans (still_modifyMember _ handle (fun _ => rfl) fun _ _ => ⟨rfl, rfl⟩)

theorem still_watchMembers (hwf : c.roster.WellFormed) : Still c c.watchMembers := by
  have hwatched : Still c (c.roster.order.foldl watchMember (c, [])).1 :=
    List.foldlRecOn (motive := fun state : Coordinator × List (Handle × IoKind) => Still c state.1)
      _ _ (.refl c) fun state hstate handle _ =>
        hstate.trans (still_watchMember state.1 state.2 handle)
  exact hwatched.trans (.foldl (fun _ hwf => still_dismiss hwf _ _) (hwatched.roster hwf) _)

theorem still_watchSources (hwf : c.roster.WellFormed) : Still c c.watchSources.state :=
  Stage.andThen_induction (motive := Still c) (still_watchPackets c)
    fun _ hwatched => hwatched.trans (still_watchMembers (hwatched.roster hwf))

theorem still_poll (c : Coordinator) (timeout : Duration) (turn : Turn) :
    Still c { c with host := (c.host.poll timeout turn).2 } :=
  .of_roster_eq rfl (sameAccepted_poll c.host timeout turn)
    (kept_poll c timeout turn).streams.more

theorem still_latch (c : Coordinator) (event : Event) : Still c (c.latch event) := by
  unfold latch
  split
  · exact .of_roster_eq rfl (.refl _) (.refl _)
  · split
    · exact .of_roster_eq rfl (.refl _) (.refl _)
    · split
      · exact still_modifyMember c _ (fun _ => rfl) fun _ _ => ⟨rfl, rfl⟩
      · exact (alike_note c _ _).still

/-! ### Reading -/

theorem still_refilled (hget : c.roster.get? handle = some member) :
    Still c (c.refilled handle member) := by
  have hread : Still c { c with
      host := (member.stream.receive c.host).host
      decoded := c.decoded ++ (member.stream.receive c.host).frames } :=
    .of_roster_eq rfl (sameAccepted_receive member.stream c.host)
      (sameStreams_receive member.stream c.host).more
  refine hread.trans (.trans ?_ (alike_countSkipped _ _ _).still)
  refine still_modifyMember _ handle (fun _ => rfl) ?_
  intro other hother
  rw [show c.roster.get? handle = some other from hother] at hget
  cases hget
  exact ⟨member.stream.id_receive c.host, member.stream.inFlight_receive c.host⟩

theorem still_gather (hget : c.roster.get? handle = some member) (now : Instant) :
    Still c (c.gather handle member now).1 := by
  refine (still_refilled hget).trans ?_
  unfold gather
  split
  next => exact .of_roster_eq rfl (.refl _) (.refl _)
  next => exact still_modifyMember _ handle (fun _ => rfl) fun _ _ => ⟨rfl, rfl⟩
  next =>
    exact (alike_note _ _ _).still.trans
      (still_modifyMember _ handle (fun _ => rfl) fun _ _ => ⟨rfl, rfl⟩)

/-! ### Acting -/

/-- Two states that differ in what an announcement does to the roster. -/
theorem Queued.of_introduce (hwf : c.roster.WellFormed) (entry : PeerEntry) {c' : Coordinator}
    (hroster : c'.roster = (c.roster.introduce handle entry).val.2)
    (hhost : SameAccepted c.host c'.host) (hstreams : MoreStreams c.host c'.host) :
    Queued (c.roster.mail handle entry) c c' where
  roster := fun h => hroster ▸ h.introduce handle entry
  members := by
    intro other member' hafter
    rw [hroster] at hafter ⊢
    obtain ⟨entries, slots, hslots⟩ := c.roster.get?_introduce handle entry other
    rw [hslots] at hafter
    obtain ⟨member, hmember, rfl⟩ := Option.map_eq_some_iff.1 hafter
    exact ⟨member, hmember, rfl, rfl, Roster.pending_introduce hwf handle entry other⟩
  accepted := hhost
  streams := hstreams

/-- Handling a message queues its replies. -/
theorem queued_actOnControl (hwf : c.roster.WellFormed) (handle : Handle) (msg : Message) :
    Queued (c.replies handle msg) c (c.actOnControl handle msg) := by
  cases hget : c.roster.get? handle with
  | none =>
      have hignored : c.actOnControl handle msg = c := by simp [actOnControl, hget]
      have hreplies : c.replies handle msg = [] := by
        cases msg with
        | connect entry => simp [replies, Roster.mail, Roster.viewOf, hget]
        | _ => rfl
      rw [hignored, hreplies]
      exact Still.refl c
  | some member =>
      unfold actOnControl
      simp only [hget]
      cases msg with
      | connect entry =>
          simp only
          split <;>
            exact .of_introduce hwf entry rfl (.of_calls_eq rfl) (SameStreams.more ⟨rfl, rfl⟩)
      | _ => exact ((alike_note c _ _).trans (alike_note _ _ _)).still

/-! ### Datagrams -/

theorem still_receivePacket (c : Coordinator) : Still c c.receivePacket.state := by
  have hrecv : Still c { c with host := (recvDatagram c.host).2 } :=
    .of_roster_eq rfl (sameAccepted_recvDatagram c.host) (sameStreams_recvDatagram c.host).more
  unfold receivePacket
  split
  next => exact .refl c
  next =>
    split
    next heq => rw [heq] at hrecv; exact hrecv
    next heq => rw [heq] at hrecv; exact .of_roster_eq rfl hrecv.accepted hrecv.streams
    next heq => rw [heq] at hrecv; exact hrecv
    next msg sender host heq =>
      rw [heq] at hrecv
      refine hrecv.trans ?_
      unfold actOnPacket
      simp only
      split <;> exact .of_roster_eq rfl (.of_calls_eq rfl) (SameStreams.more ⟨rfl, rfl⟩)

theorem still_sendPacket (c : Coordinator) : Still c c.sendPacket.state := by
  unfold sendPacket
  split
  next => exact .refl c
  next =>
    split
    next => exact .of_roster_eq rfl (.refl _) (.refl _)
    next msg target rest _ =>
      have hsend := sameAccepted_sendDatagram msg target c.scratch c.host
      have hstreams := (sameStreams_sendDatagram msg target c.scratch c.host).more
      split
      next heq => rw [heq] at hsend hstreams; exact .of_roster_eq rfl hsend hstreams
      next scratch host heq =>
        rw [heq] at hsend hstreams
        have hsent : Still c { c with scratch := scratch, host := host, outbox := rest } :=
          .of_roster_eq rfl hsend hstreams
        refine hsent.trans ?_
        unfold countPacket
        simp only
        split <;> exact .of_roster_eq rfl (.of_calls_eq rfl) (SameStreams.more ⟨rfl, rfl⟩)
      next heq => rw [heq] at hsend hstreams; exact .of_roster_eq rfl hsend hstreams

theorem still_servePackets (c : Coordinator) : Still c c.servePackets.state :=
  Stage.andThen_induction (motive := Still c) (still_receivePacket c)
    fun _ hreceived => hreceived.trans (still_sendPacket _)

theorem still_dismissIdle (hwf : c.roster.WellFormed) (now : Instant) :
    Still c (c.dismissIdle now) :=
  .foldl (fun _ hwf => still_dismiss hwf _ _) hwf _

/-! ### Writing -/

/-- A stage that carries the output of one member on, unless it fails. A message leaves the
queue only while nothing is in flight. -/
structure Moved (handle : Handle) (failed : Prop) (c c' : Coordinator) : Prop where
  roster : c.roster.WellFormed → c'.roster.WellFormed
  others : ∀ {other member'}, other ≠ handle → c'.roster.get? other = some member' →
    ∃ member, c.roster.get? other = some member ∧ member'.stream.id = member.stream.id ∧
      member'.stream.inFlight = member.stream.inFlight ∧
        c'.roster.pending other = c.roster.pending other
  member : ∀ {member'}, c'.roster.get? handle = some member' →
    ∃ member, c.roster.get? handle = some member ∧ member'.stream.id = member.stream.id ∧
      (¬ failed → member'.stream.carried c'.host ++ frames (c'.roster.pending handle) =
        member.stream.carried c.host ++ frames (c.roster.pending handle)) ∧
      ((c'.roster.pending handle).length < (c.roster.pending handle).length →
        member.stream.inFlight = [])
  accepted : ∀ {id}, (∀ {member}, c.roster.get? handle = some member → id ≠ member.stream.id) →
    accepted id c'.host.calls = accepted id c.host.calls
  streams : MoreStreams c.host c'.host

theorem pending_settleWrite (c : Coordinator) (handle : Handle) (written : FramedStream.Written)
    (other : Handle) :
    (c.settleWrite handle written).roster.pending other = c.roster.pending other := by
  have hstored := c.roster.pending_modify handle other
    (f := fun member => { member with stream := written.stream }) fun _ => rfl
  unfold settleWrite
  simp only
  split
  · have hcleared := (c.roster.modify handle fun member =>
      { member with stream := written.stream }).pending_modify handle other
        (f := fun member => { member with latch := member.latch.withoutWrite }) fun _ => rfl
    exact hcleared.trans hstored
  · exact hstored

theorem Moved.weaken {failed failed' : Prop} {c c' : Coordinator} (h : Moved handle failed c c')
    (himp : failed → failed') : Moved handle failed' c c' where
  roster := h.roster
  others := h.others
  member := by
    intro member' hafter
    obtain ⟨member, hmember, hstream, hcarried, hwhole⟩ := h.member hafter
    exact ⟨member, hmember, hstream, fun hgoing => hcarried (hgoing ∘ himp), hwhole⟩
  accepted := h.accepted
  streams := h.streams

theorem Moved.alike {failed : Prop} {a b c : Coordinator} (hab : Moved handle failed a b)
    (hbc : Alike b c) : Moved handle failed a c where
  roster := fun h => hbc.roster ▸ hab.roster h
  others := by
    rw [hbc.roster]
    exact hab.others
  member := by
    unfold FramedStream.carried
    rw [hbc.roster, hbc.calls]
    exact hab.member
  accepted := fun hother => hbc.calls ▸ hab.accepted hother
  streams := hab.streams.trans hbc.streams.more

/-- Settling a write to a member, for which its queue may have been shortened. -/
theorem moved_settleWrite {roster : Roster} {queue : Member → List Handle} (scratch : Scratch)
    {written : FramedStream.Written} (hget : c.roster.get? handle = some member)
    (hwf : roster.WellFormed)
    (hroster : ∀ other, roster.get? other =
      if other = handle then
        (c.roster.get? other).map fun member => { member with queue := queue member }
      else c.roster.get? other)
    (hpending : ∀ other, other ≠ handle → roster.pending other = c.roster.pending other)
    (hid : written.stream.id = member.stream.id)
    (hcarried : ∀ outcome, written.result = .ok outcome →
      written.stream.carried written.host ++ frames (roster.pending handle) =
        member.stream.carried c.host ++ frames (c.roster.pending handle))
    (hwhole : (roster.pending handle).length < (c.roster.pending handle).length →
      member.stream.inFlight = [])
    (haccepted : ∀ {id}, id ≠ member.stream.id →
      accepted id written.host.calls = accepted id c.host.calls)
    (hstreams : SameStreams c.host written.host) :
    Moved handle (∃ e, written.result = .error e) c
      (({ c with roster := roster, scratch := scratch } : Coordinator).settleWrite handle
        written) := by
  obtain ⟨hwf', hhost, -⟩ := settleWrite_frame
    ({ c with roster := roster, scratch := scratch } : Coordinator) handle written
  refine ⟨fun _ => hwf' hwf, ?_, ?_, ?_, hhost ▸ hstreams.more⟩
  · intro other member' hne hafter
    rw [pending_settleWrite]
    have hother := ((get?_of_settleWrite_taken hget hroster hafter).resolve_right
      fun h => hne h.1).2
    exact ⟨member', hother, rfl, rfl, hpending other hne⟩
  · intro member' hafter
    obtain ⟨-, hstream, -⟩ := (get?_of_settleWrite_taken hget hroster hafter).resolve_left
      fun h => h.1 rfl
    rw [pending_settleWrite, hhost, hstream]
    refine ⟨member, hget, hid, fun hgoing => ?_, hwhole⟩
    cases hresult : written.result with
    | error e => exact absurd ⟨e, hresult⟩ hgoing
    | ok outcome => exact hcarried outcome hresult
  · intro id hother
    rw [hhost]
    exact haccepted (hother hget)

theorem Still.moved {c c' : Coordinator} (h : Still c c') (handle : Handle) (failed : Prop) :
    Moved handle failed c c' where
  roster := h.roster
  others := by
    intro other member' _ hafter
    obtain ⟨member, hmember, hstream, hflight, hpending⟩ := h.members hafter
    exact ⟨member, hmember, hstream, hflight, by simpa using hpending⟩
  member := by
    intro member' hafter
    obtain ⟨member, hmember, hstream, hflight, hpending⟩ := h.members hafter
    rw [mailFor_nil, List.append_nil] at hpending
    refine ⟨member, hmember, hstream, fun _ => ?_, fun hshort => ?_⟩
    · rw [FramedStream.carried, FramedStream.carried, hstream, hflight, h.accepted, hpending]
    · rw [hpending] at hshort
      exact absurd hshort (Nat.lt_irrefl _)
  accepted := fun _ => h.accepted _
  streams := h.streams

/-- Going on with a frame in flight takes nothing from the queue. -/
theorem moved_continueWrite (hwf : c.roster.WellFormed)
    (hget : c.roster.get? handle = some member) :
    Moved handle ((c.continueWrite handle member).2 ≠ none) c
      (c.continueWrite handle member).1 := by
  have hsame : ∀ other, c.roster.get? other =
      if other = handle then
        (c.roster.get? other).map fun member => { member with queue := member.queue }
      else c.roster.get? other := by
    intro other
    split <;> simp
  have hmoved := moved_settleWrite c.scratch hget hwf hsame (fun _ _ => rfl)
    (member.stream.id_resume c.host)
    (fun _ hresult => by rw [FramedStream.carried_resume hresult])
    (fun hshort => absurd hshort (Nat.lt_irrefl _)) FramedStream.accepted_resume_other
    (sameStreams_resume member.stream c.host)
  unfold continueWrite
  simp only
  split
  next => exact hmoved.weaken fun _ => nofun
  next hresult => exact hmoved.weaken fun ⟨e, he⟩ => by simp [he] at hresult

/-- Writing the next message takes it from the queue, and adds its frame to what was
carried. -/
theorem moved_writeNext (hwf : c.roster.WellFormed) (hget : c.roster.get? handle = some member)
    (hflight : member.stream.inFlight = []) :
    Moved handle ((c.writeNext handle member).2 ≠ none) c (c.writeNext handle member).1 := by
  have hfirst := Roster.fst_takeNext hwf handle
  have hrest := Roster.pending_takeNext hwf handle
  have hroster := Roster.get?_takeNext c.roster handle
  have hwf' := hwf.takeNext handle
  unfold writeNext
  rcases htaken : c.roster.takeNext handle with ⟨taken, roster⟩
  rw [htaken] at hfirst hrest hroster hwf'
  cases taken with
  | none =>
      have hsame := Roster.snd_takeNext_of_none hwf (congrArg Prod.fst htaken)
      rw [htaken] at hsame
      subst hsame
      have hcleared : Still c (c.clearMemberWrite handle) :=
        still_modifyMember c handle (fun _ => rfl) fun _ _ => ⟨rfl, rfl⟩
      exact hcleared.moved handle _
  | some msg =>
      have hpending : c.roster.pending handle = msg :: roster.pending handle := by
        have htail : roster.pending handle = (c.roster.pending handle).tail :=
          (hrest handle).trans (if_pos rfl)
        rw [htail]
        exact (List.cons_head?_tail hfirst.symm).symm
      have hmoved := moved_settleWrite (member.stream.transmit msg c.scratch c.host).2 hget hwf'
        hroster (fun other hne => (hrest other).trans (if_neg hne))
        (member.stream.id_transmit msg c.scratch c.host)
        (fun _ hresult => by
          rw [FramedStream.carried_transmit hflight hresult, hpending, frames_cons,
            List.append_assoc])
        (fun _ => hflight) FramedStream.accepted_transmit_other
        (sameStreams_transmit member.stream msg c.scratch c.host)
      simp only
      split
      next => exact hmoved.weaken fun _ => nofun
      next hresult =>
        refine (hmoved.weaken fun ⟨e, he⟩ => ?_).alike (alike_countSent _ _ _)
        simp [he] at hresult

/-- Writing to a member carries its output on, unless it fails. -/
theorem moved_writeMember (hwf : c.roster.WellFormed) (handle : Handle) :
    Moved handle ((c.writeMember handle).2 ≠ none) c (c.writeMember handle).1 := by
  unfold writeMember
  split
  next => exact (Still.refl c).moved handle _
  next member hget =>
    by_cases hlatch : member.latch.writable = true
    · simp only [hlatch, Bool.not_true, Bool.false_eq_true, if_false]
      by_cases hflight : member.stream.hasInFlight = true
      · rw [if_pos hflight]
        exact moved_continueWrite hwf hget
      · rw [if_neg hflight]
        exact moved_writeNext hwf hget (by simpa [FramedStream.hasInFlight] using hflight)
    · simp only [hlatch, Bool.not_false, if_true]
      exact (Still.refl c).moved handle _

/-! ### Accepting -/

/-- A stage that may attach somebody, over a stream that waited to be accepted and with
nothing to go out. -/
structure Admitted (c c' : Coordinator) : Prop where
  members : ∀ {handle member'}, c'.roster.get? handle = some member' →
    (c.roster.get? handle = some member' ∧
      c'.roster.pending handle = c.roster.pending handle) ∨
    (c.roster.get? handle = none ∧ member'.stream.id ∈ c.host.waiting ∧
      member'.stream.inFlight = [] ∧ c'.roster.pending handle = [])
  accepted : SameAccepted c.host c'.host
  streams : MoreStreams c.host c'.host

theorem Admitted.of_roster_eq {c c' : Coordinator} (hroster : c'.roster = c.roster)
    (haccepted : SameAccepted c.host c'.host) (hstreams : MoreStreams c.host c'.host) :
    Admitted c c' where
  members := fun hget => .inl ⟨hroster ▸ hget, by rw [hroster]⟩
  accepted := haccepted
  streams := hstreams

theorem admitted_welcome (hwf : c.roster.WellFormed) {id : StreamId} {addr : SocketAddr}
    (haccept : c.host.accept = (.ok (id, addr), host)) (now : Instant) :
    Admitted c (({ c with host := host } : Coordinator).welcome id addr now) := by
  have haccepted := sameAccepted_accept haccept
  have hstreams := moreStreams_accept haccept
  have hwaiting : id ∈ c.host.waiting := by simp [(accept_ok haccept).1]
  have hget := fun handle member => @Roster.get?_of_enroll c.roster handle member hwf (.ofStream id)
    addr ⟨now, c.config.idleTimeout⟩
  have hnone := Roster.get?_fst_enroll hwf (.ofStream id) addr ⟨now, c.config.idleTimeout⟩
  have hpending := Roster.pending_enroll hwf (.ofStream id) addr ⟨now, c.config.idleTimeout⟩
  have hwf' := hwf.enroll (.ofStream id) addr ⟨now, c.config.idleTimeout⟩
  unfold welcome
  rcases hattached : c.roster.enroll (.ofStream id) addr ⟨now, c.config.idleTimeout⟩ with
    ⟨⟨fresh, roster⟩, log⟩
  rw [hattached] at hget hnone hpending hwf'
  simp only at hget hnone hpending hwf' ⊢
  split
  next kind watched heq =>
    -- What was attached is gone again, and its stream is closed.
    have hregistered := sameAccepted_register heq
    have hwatched := sameStreams_register heq
    refine ⟨?_, fun id => ?_, hstreams.trans (SameStreams.more ⟨hwatched.waiting, hwatched.count⟩)⟩
    · intro handle member' hafter
      obtain ⟨hne, hbetween⟩ := Roster.get?_of_detach hwf' hafter
      have hbefore := ((hget handle member' hbetween).resolve_left fun h => hne h.1).2
      exact .inl ⟨hbefore, (Roster.pending_detach hwf' _ _).trans
        ((if_neg hne).trans (hpending handle))⟩
    · refine Eq.trans ?_ ((hregistered id).trans (haccepted id))
      exact (accepted_snoc id watched.calls _).trans (List.append_nil _)
  next watched heq =>
    have hregistered := sameAccepted_register heq
    have hwatched := sameStreams_register heq
    refine ⟨?_, fun id => (hregistered id).trans (haccepted id),
      hstreams.trans (SameStreams.more ⟨hwatched.waiting, hwatched.count⟩)⟩
    intro handle member' hafter
    rcases hget handle member' hafter with ⟨rfl, rfl⟩ | ⟨-, hbefore⟩
    · exact .inr ⟨hnone, hwaiting, rfl, (hpending handle).trans (Roster.pending_of_absent hnone)⟩
    · exact .inl ⟨hbefore, hpending handle⟩

theorem acceptOne_admitted (hwf : c.roster.WellFormed) (now : Instant) :
    Admitted c (c.acceptOne now).state := by
  unfold acceptOne
  split
  next => exact .of_roster_eq rfl (.refl _) (.refl _)
  next =>
    split
    next id addr host heq => exact admitted_welcome hwf heq now
    next heq => exact .of_roster_eq rfl (sameAccepted_accept heq) (moreStreams_accept heq)
    next heq =>
      have haccepted := sameAccepted_accept heq
      have hstreams := moreStreams_accept heq
      simp only
      split
      · exact .of_roster_eq rfl (haccepted.trans (.of_calls_eq rfl))
          (hstreams.trans (SameStreams.more ⟨rfl, rfl⟩))
      · exact .of_roster_eq rfl haccepted hstreams

end Coordinator
end Rendezvous
