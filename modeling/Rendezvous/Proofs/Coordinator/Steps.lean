import Mathlib.Logic.Relation
import Rendezvous.Proofs.Coordinator.Ledger
import Rendezvous.Proofs.Host.Arrived

/-!
# Rendezvous.Proofs.Coordinator.Steps

**The loop in small steps.** Whatever the loop does between two reads comes down to four
kinds of `Step`: something that concerns no member, a change to a member in place, a
message taken off a queue, and a member taken off the roster. In none of them does anything
come in. Each function of the loop is a row of such steps (`Calm`), so a property is shown
for the four kinds, and `Calm.induction` does the rest.

Three things are not steps, and `acceptOne_cases`, `gather_cases` and `roster_actOnControl`
say where they happen: somebody is attached, bytes are read, and an entry is announced.
-/

namespace Rendezvous
namespace Coordinator

/-- A change to a member that leaves it who it is: with the same connection, the same
received bytes, the same entry and the same queue. -/
structure SameMember (member member' : Member) : Prop where
  stream : member'.stream.id = member.stream.id
  reassembly : member'.stream.reassembly = member.stream.reassembly
  addr : member'.addr = member.addr
  entry : member'.entry = member.entry
  queue : member'.queue = member.queue

/-- Datagrams that may have been queued in between are answers to address requests. -/
def Answering (before after : Outbox) : Prop :=
  ∀ item ∈ after, item ∈ before ∨ ∃ addr, item.1 = .stunResponse addr

/-- A small step of the loop, in which nothing comes in, and nobody goes who is not
`leaving`. -/
inductive Step (leaving : Handle → Prop) : Coordinator → Coordinator → Prop where
  /-- Something that concerns no member. -/
  | aside {c c' : Coordinator} (roster : c'.roster = c.roster) (decoded : c'.decoded = c.decoded)
    (host : NothingIn c.host c'.host) (streams : MoreStreams c.host c'.host)
    (outbox : Answering c.outbox c'.outbox) : Step leaving c c'
  /-- A change to a member in place. -/
  | adjust (c : Coordinator) (handle : Handle) (f : Member → Member)
    (queue : ∀ member, (f member).queue = member.queue)
    (same : ∀ member, c.roster.get? handle = some member → SameMember member (f member)) :
    Step leaving c (c.modifyMember handle f)
  /-- A message is taken off a queue. -/
  | takeNext (c : Coordinator) (handle : Handle) :
    Step leaving c { c with roster := (c.roster.takeNext handle).2 }
  /-- A member is taken off the roster. -/
  | detach (c : Coordinator) (handle : Handle) (leaves : leaving handle) :
    Step leaving c { c with roster := (c.roster.detach handle).2 }

/-- Anyone may go. -/
abbrev anyone : Handle → Prop := fun _ => True

/-- Nobody goes. -/
abbrev nobody : Handle → Prop := fun _ => False

/-- Any number of small steps. -/
def Calm (leaving : Handle → Prop) (c c' : Coordinator) : Prop :=
  Relation.ReflTransGen (Step leaving) c c'

variable {p : Handle → Prop} {c c' : Coordinator} {handle : Handle} {member : Member}
  {host : Host}

namespace Calm

theorem refl (c : Coordinator) : Calm p c c := Relation.ReflTransGen.refl

theorem step (h : Step p c c') : Calm p c c' := Relation.ReflTransGen.single h

theorem trans {a b c : Coordinator} (hab : Calm p a b) (hbc : Calm p b c) :
    Calm p a c :=
  Relation.ReflTransGen.trans hab hbc

/-- What every small step keeps, any number of them keep. -/
theorem induction {motive : Coordinator → Prop} (hcalm : Calm p c c') (h : motive c)
    (hstep : ∀ {a b}, Step p a b → motive a → motive b) : motive c' := by
  induction hcalm with
  | refl => exact h
  | tail _ hlast ih => exact hstep hlast ih

/-- Steps that leave the outbox alone, too. -/
theorem aside (roster : c'.roster = c.roster) (decoded : c'.decoded = c.decoded)
    (host : NothingIn c.host c'.host) (streams : MoreStreams c.host c'.host)
    (outbox : c'.outbox = c.outbox) : Calm p c c' :=
  .step (.aside roster decoded host streams fun _ hitem => .inl (outbox ▸ hitem))

/-- Steps that at most write the log or count something. -/
theorem silent (roster : c'.roster = c.roster) (decoded : c'.decoded = c.decoded)
    (calls : c'.host.calls = c.host.calls) (streams : SameStreams c.host c'.host)
    (outbox : c'.outbox = c.outbox) : Calm p c c' :=
  aside roster decoded (.of_calls_eq calls) streams.more outbox

theorem foldl {α : Type} {step : Coordinator → α → Coordinator} (c : Coordinator) (xs : List α)
    (hstep : ∀ c, ∀ x ∈ xs, Calm p c (step c x)) : Calm p c (xs.foldl step c) :=
  List.foldlRecOn (motive := Calm p c) _ _ (.refl c) fun _ h x hx => h.trans (hstep _ x hx)

/-- The shared inbox is left alone. -/
theorem decoded_eq (h : Calm p c c') : c'.decoded = c.decoded := by
  refine h.induction (motive := fun b => b.decoded = c.decoded) rfl fun hstep hbefore => ?_
  cases hstep with
  | aside _ decoded _ _ _ => exact decoded.trans hbefore
  | _ => exact hbefore

end Calm

theorem calm_note (c : Coordinator) (level : Level) (text : String) :
    Calm p c (c.note level text) :=
  .silent rfl rfl rfl ⟨rfl, rfl⟩ rfl

/-- Readiness, what a member is watched for and its timer may always change. -/
theorem calm_adjust (c : Coordinator) (handle : Handle) (f : Member → Member)
    (hf : ∀ member, SameMember member (f member)) : Calm p c (c.modifyMember handle f) :=
  .step (.adjust c handle f (fun member => (hf member).queue) fun member _ => hf member)

/-! ### Losing a member -/

theorem calm_dismiss (c : Coordinator) (hleave : p handle) (departure : Departure) :
    Calm p c (c.dismiss handle departure) := by
  cases hget : c.roster.get? handle with
  | none =>
      rw [dismiss_of_absent hget]
      exact .refl c
  | some member =>
      obtain ⟨hroster, ⟨failure, hcalls⟩, hstreams, -, -, -, houtbox⟩ :=
        dismiss_frame hget departure
      refine (Calm.step (.detach c handle hleave)).trans
        (.aside hroster ?_ ?_ hstreams.more houtbox)
      · unfold dismiss
        split
        · next heq => rw [heq]
        · rfl
      · refine ⟨[.deregister (.stream member.stream.id) failure, .close member.stream.id], ?_, ?_⟩
        · rw [hcalls, List.append_assoc]
          rfl
        · simp [Call.bringsIn]

theorem calm_dismissIdle (c : Coordinator) (now : Instant)
    (hleave : ∀ handle ∈ c.roster.overdue now, p handle) :
    Calm p c (c.dismissIdle now) :=
  .foldl c _ fun c handle hdue => calm_dismiss c (hleave handle hdue) .idle

/-! ### Before and after the poll -/

theorem calm_supply (c : Coordinator) (supply : Supply) :
    Calm p c { c with host := c.host.supply supply } :=
  .aside rfl rfl (.of_calls_eq (c.host.calls_supply supply)) (moreStreams_supply c.host supply) rfl

theorem calm_watchPackets (c : Coordinator) : Calm p c c.watchPackets.state := by
  unfold watchPackets
  simp only
  split
  next => exact .refl c
  next =>
    split
    next heq =>
      exact .aside rfl rfl (nothingIn_reregister heq) (sameStreams_reregister heq).more rfl
    next heq =>
      exact .aside rfl rfl (nothingIn_reregister heq) (sameStreams_reregister heq).more rfl

theorem calm_watchMember (c : Coordinator) (failed : List (Handle × IoKind)) (handle : Handle) :
    Calm p c (watchMember (c, failed) handle).1 := by
  unfold watchMember
  simp only
  split
  next => exact .refl c
  next =>
    split
    next => exact .refl c
    next =>
      split
      next heq =>
        exact .aside rfl rfl (nothingIn_reregister heq) (sameStreams_reregister heq).more rfl
      next host heq =>
        have hasked : Calm p c { c with host := host } :=
          .aside rfl rfl (nothingIn_reregister heq) (sameStreams_reregister heq).more rfl
        exact hasked.trans (calm_adjust _ handle _ fun _ => ⟨rfl, rfl, rfl, rfl, rfl⟩)

/-- Watching members one by one. -/
theorem calm_watchEach (c : Coordinator) (handles : List Handle) (failed : List (Handle × IoKind)) :
    Calm p c (handles.foldl watchMember (c, failed)).1 :=
  List.foldlRecOn
    (motive := fun state : Coordinator × List (Handle × IoKind) => Calm p c state.1)
    _ _ (.refl c) fun state hstate handle _ =>
      hstate.trans (calm_watchMember state.1 state.2 handle)

theorem calm_watchMembers (c : Coordinator)
    (hleave : ∀ entry ∈ (c.roster.order.foldl watchMember (c, [])).2, p entry.1) :
    Calm p c c.watchMembers :=
  (calm_watchEach c _ _).trans (.foldl _ _ fun _ entry hentry =>
    calm_dismiss _ (hleave entry hentry) (.channel (.io entry.2)))

theorem calm_watchSources (c : Coordinator) (hleave : ∀ handle, p handle) :
    Calm p c c.watchSources.state :=
  Stage.andThen_induction (motive := Calm p c) (calm_watchPackets c)
    fun _ hwatched => hwatched.trans (calm_watchMembers _ fun entry _ => hleave entry.1)

theorem calm_poll (c : Coordinator) (timeout : Duration) (turn : Turn) :
    Calm p c { c with host := (c.host.poll timeout turn).2 } :=
  .aside rfl rfl (nothingIn_poll c.host timeout turn) (kept_poll c timeout turn).streams.more rfl

theorem calm_latch (c : Coordinator) (event : Event) : Calm p c (c.latch event) := by
  unfold latch
  split
  · exact .silent rfl rfl rfl (.refl _) rfl
  · split
    · exact .silent rfl rfl rfl (.refl _) rfl
    · split
      · exact calm_adjust c _ _ fun _ => ⟨rfl, rfl, rfl, rfl, rfl⟩
      · exact calm_note c _ _

/-! ### Writing -/

/-- Taking over a connection after a write, when the queue may have been shortened. -/
theorem calm_settleWrite {written : FramedStream.Written}
    (hget : c.roster.get? handle = some member)
    (hid : written.stream.id = member.stream.id)
    (hreassembly : written.stream.reassembly = member.stream.reassembly)
    (hhost : NothingIn c.host written.host) (hstreams : SameStreams c.host written.host) :
    Calm p c (c.settleWrite handle written) := by
  have hwritten : Calm p c { c with host := written.host } :=
    .aside rfl rfl hhost hstreams.more rfl
  have hstored : Calm p { c with host := written.host }
      (({ c with host := written.host } : Coordinator).modifyMember handle fun member =>
        { member with stream := written.stream }) := by
    refine .step (.adjust _ _ _ (fun _ => rfl) fun other hother => ?_)
    obtain rfl := Option.some.inj (hget.symm.trans hother)
    exact ⟨hid, hreassembly, rfl, rfl, rfl⟩
  refine (hwritten.trans hstored).trans ?_
  unfold settleWrite
  simp only
  split
  · exact calm_adjust _ handle _ fun _ => ⟨rfl, rfl, rfl, rfl, rfl⟩
  · exact .refl _

theorem calm_continueWrite (hget : c.roster.get? handle = some member) :
    Calm p c (c.continueWrite handle member).1 := by
  have hsettled := calm_settleWrite (p := p) hget (member.stream.id_resume c.host)
    (member.stream.reassembly_resume c.host) (member.stream.nothingIn_resume c.host)
    (sameStreams_resume member.stream c.host)
  unfold continueWrite
  simp only
  split <;> exact hsettled

theorem calm_countSent (c : Coordinator) (msg : Message) (addr : SocketAddr) :
    Calm p c (c.countSent msg addr) := by
  unfold countSent
  simp only
  split <;> exact .silent rfl rfl rfl ⟨rfl, rfl⟩ rfl

theorem calm_writeNext (hget : c.roster.get? handle = some member) :
    Calm p c (c.writeNext handle member).1 := by
  have htaken := Calm.step (p := p) (.takeNext c handle)
  have hafter : (c.roster.takeNext handle).2.get? handle =
      some { member with queue := member.queue.tail } := by
    rw [Roster.get?_takeNext, if_pos rfl, hget]
    rfl
  unfold writeNext
  rcases hnext : c.roster.takeNext handle with ⟨_ | msg, roster⟩
  · rw [hnext] at htaken
    exact htaken.trans (calm_adjust _ handle _ fun _ => ⟨rfl, rfl, rfl, rfl, rfl⟩)
  · rw [hnext] at htaken hafter
    have hencoded : Calm p { c with roster := roster }
        { c with roster := roster, scratch := (member.stream.transmit msg c.scratch c.host).2 } :=
      .silent rfl rfl rfl (.refl _) rfl
    have hwritten : Calm p
        { c with roster := roster, scratch := (member.stream.transmit msg c.scratch c.host).2 }
        (settleWrite _ handle (member.stream.transmit msg c.scratch c.host).1) :=
      calm_settleWrite hafter (member.stream.id_transmit msg c.scratch c.host)
        (member.stream.reassembly_transmit msg c.scratch c.host)
        (member.stream.nothingIn_transmit msg c.scratch c.host)
        (sameStreams_transmit member.stream msg c.scratch c.host)
    have hsettled := (htaken.trans hencoded).trans hwritten
    simp only
    split
    · exact hsettled
    · exact hsettled.trans (calm_countSent _ _ _)

theorem calm_writeMember (c : Coordinator) (handle : Handle) :
    Calm p c (c.writeMember handle).1 := by
  unfold writeMember
  split
  next => exact .refl c
  next member hget =>
    split
    · exact .refl c
    · split
      · exact calm_continueWrite hget
      · exact calm_writeNext hget

/-! ### Datagrams -/

/-- The only datagrams that are ever queued are answers to address requests. -/
theorem answerPacket_reply {msg answer : Message} {sender target : SocketAddr}
    (h : (answerPacket msg sender).val = .reply answer target) :
    ∃ addr, answer = .stunResponse addr := by
  cases msg with
  | stunRequest =>
      cases hview : sender.ipv4View with
      | none => simp [answerPacket, observe, hview] at h
      | some addr =>
          simp only [answerPacket, observe, hview] at h
          cases h
          exact ⟨addr, rfl⟩
  | _ => simp [answerPacket] at h

theorem calm_actOnPacket (c : Coordinator) (msg : Message) (sender : SocketAddr) :
    Calm p c (c.actOnPacket msg sender) := by
  unfold actOnPacket
  simp only
  split
  next answer target hreply =>
    refine .step (.aside rfl rfl (.of_calls_eq rfl) (SameStreams.more ⟨rfl, rfl⟩) ?_)
    intro item hitem
    rcases List.mem_append.1 hitem with hold | hnew
    · exact .inl hold
    · rw [List.mem_singleton.1 hnew]
      exact .inr (answerPacket_reply hreply)
  next => exact .silent rfl rfl rfl ⟨rfl, rfl⟩ rfl
  next => exact .silent rfl rfl rfl ⟨rfl, rfl⟩ rfl

theorem calm_receivePacket (c : Coordinator) : Calm p c c.receivePacket.state := by
  have hrecv : Calm p c { c with host := (recvDatagram c.host).2 } :=
    .aside rfl rfl (nothingIn_recvDatagram c.host) (sameStreams_recvDatagram c.host).more rfl
  unfold receivePacket
  split
  next => exact .refl c
  next =>
    split
    next heq => rw [heq] at hrecv; exact hrecv
    next heq =>
      rw [heq] at hrecv
      exact hrecv.trans (.silent rfl rfl rfl (.refl _) rfl)
    next heq => rw [heq] at hrecv; exact hrecv
    next msg sender host heq =>
      rw [heq] at hrecv
      exact hrecv.trans (calm_actOnPacket _ msg sender)

theorem calm_sendPacket (c : Coordinator) : Calm p c c.sendPacket.state := by
  unfold sendPacket
  split
  next => exact .refl c
  next =>
    split
    next => exact .silent rfl rfl rfl (.refl _) rfl
    next msg target rest hbox =>
      have hsend := nothingIn_sendDatagram msg target c.scratch c.host
      have hstreams := (sameStreams_sendDatagram msg target c.scratch c.host).more
      split
      next heq => rw [heq] at hsend hstreams; exact .aside rfl rfl hsend hstreams rfl
      next scratch host heq =>
        rw [heq] at hsend hstreams
        have hsent : Calm p c { c with scratch := scratch, host := host, outbox := rest } :=
          .step (.aside rfl rfl hsend hstreams fun item hitem =>
            .inl (hbox ▸ List.mem_cons_of_mem _ hitem))
        refine hsent.trans ?_
        unfold countPacket
        simp only
        split <;> exact .silent rfl rfl rfl ⟨rfl, rfl⟩ rfl
      next heq => rw [heq] at hsend hstreams; exact .aside rfl rfl hsend hstreams rfl

theorem calm_servePackets (c : Coordinator) : Calm p c c.servePackets.state :=
  Stage.andThen_induction (motive := Calm p c) (calm_receivePacket c)
    fun _ hreceived => hreceived.trans (calm_sendPacket _)

/-! ### What is not a small step -/

/-- Whoever has been attached is watched for reading, or taken off the roster again. -/
theorem calm_welcome (c : Coordinator) (host : Host) (id : StreamId) (addr : SocketAddr)
    (now : Instant)
    (hleave : p
      (c.roster.enroll (.ofStream id) addr ⟨now, c.config.idleTimeout⟩).val.1) :
    Calm p
      { c with
        host := host
        roster := (c.roster.enroll (.ofStream id) addr ⟨now, c.config.idleTimeout⟩).val.2 }
      (({ c with host := host } : Coordinator).welcome id addr now) := by
  unfold welcome
  rcases hattached : c.roster.enroll (.ofStream id) addr ⟨now, c.config.idleTimeout⟩ with
    ⟨⟨fresh, roster⟩, log⟩
  rw [hattached] at hleave
  simp only
  split
  next kind watched heq =>
    have hregistered := nothingIn_register heq
    have hstreams := sameStreams_register heq
    refine (Calm.step (.detach _ fresh hleave)).trans (.aside rfl rfl ?_ ?_ rfl)
    · exact (NothingIn.of_calls_eq rfl).trans (hregistered.trans (.of_call rfl rfl))
    · exact SameStreams.more ⟨hstreams.waiting, hstreams.count⟩
  next watched heq =>
    have hregistered := nothingIn_register heq
    have hstreams := sameStreams_register heq
    refine .aside rfl rfl ?_ ?_ rfl
    · exact (NothingIn.of_calls_eq rfl).trans (hregistered.trans (.of_calls_eq rfl))
    · exact SameStreams.more ⟨hstreams.waiting, hstreams.count⟩

/-- Somebody is attached at most once in an accept, over the connection that came in. -/
theorem acceptOne_cases (c : Coordinator) (now : Instant)
    (hleave : ∀ stream addr timer, p (c.roster.enroll stream addr timer).val.1) :
    Calm p c (c.acceptOne now).state ∨
      ∃ id addr host, c.host.accept = (.ok (id, addr), host) ∧ (c.acceptOne now).failure = none ∧
        Calm p
          { c with
            host := host
            roster :=
              (c.roster.enroll (.ofStream id) addr ⟨now, c.config.idleTimeout⟩).val.2 }
          (c.acceptOne now).state := by
  have hrefused {kind : IoKind} {host : Host} (heq : c.host.accept = (.error kind, host)) :
      Calm p c { c with host := host } :=
    .aside rfl rfl (nothingIn_accept_error heq) (accept_error heq).1.more rfl
  unfold acceptOne
  split
  next => exact .inl (.refl c)
  next =>
    split
    next id addr host heq => exact .inr ⟨id, addr, host, heq, rfl,
      calm_welcome c host id addr now (hleave _ _ _)⟩
    next heq => exact .inl ((hrefused heq).trans (.silent rfl rfl rfl (.refl _) rfl))
    next heq =>
      simp only
      split
      · exact .inl ((hrefused heq).trans (calm_note _ _ _))
      · exact .inl (hrefused heq)

theorem decoded_acceptOne (c : Coordinator) (now : Instant) :
    (c.acceptOne now).state.decoded = c.decoded := by
  rcases acceptOne_cases (p := anyone) c now fun _ _ _ => trivial with
    hcalm | ⟨_, _, _, _, _, hcalm⟩
  · exact hcalm.decoded_eq
  · exact hcalm.decoded_eq

/-- Acting on a message announces the entry that it brings, if it brings one. -/
theorem roster_actOnControl (c : Coordinator) (handle : Handle) (msg : Message) :
    (c.actOnControl handle msg).roster =
      match msg with
      | .connect entry => (c.roster.introduce handle entry).val.2
      | _ => c.roster := by
  unfold actOnControl
  cases hget : c.roster.get? handle with
  | none => cases msg <;> simp [Roster.introduce, hget]
  | some member =>
      cases msg with
      | connect entry =>
          simp only
          split <;> rfl
      | _ => rfl

/-- Acting on a message changes nothing about a member but its entry and its queue. -/
theorem get?_actOnControl (c : Coordinator) (handle : Handle) (msg : Message) (other : Handle) :
    ∃ (entries : Member → Option PeerEntry) (slots : List Handle),
      (c.actOnControl handle msg).roster.get? other =
        (c.roster.get? other).map fun member =>
          { member with entry := entries member, queue := member.queue ++ slots } := by
  rw [roster_actOnControl]
  split
  · exact c.roster.get?_introduce handle _ other
  · refine ⟨Member.entry, [], ?_⟩
    cases c.roster.get? other <;> simp

theorem actOnControl_frame (c : Coordinator) (handle : Handle) (msg : Message) :
    (c.actOnControl handle msg).decoded = c.decoded ∧
      (c.actOnControl handle msg).host.calls = c.host.calls ∧
        SameStreams c.host (c.actOnControl handle msg).host ∧
          (c.actOnControl handle msg).outbox = c.outbox := by
  unfold actOnControl
  split
  next => exact ⟨rfl, rfl, .refl _, rfl⟩
  next =>
    cases msg with
    | connect entry =>
        simp only
        split <;> exact ⟨rfl, rfl, ⟨rfl, rfl⟩, rfl⟩
    | _ => exact ⟨rfl, rfl, ⟨rfl, rfl⟩, rfl⟩

/-- Bytes are read once at most from a member, and unless that fails everything else about
it is calm. -/
theorem gather_cases (c : Coordinator) (handle : Handle) (member : Member) (now : Instant) :
    (∃ e, (member.stream.receive c.host).result = .error e ∧
        c.gather handle member now = ({ c.refilled handle member with decoded := [] }, some e)) ∨
      ((∀ e, (member.stream.receive c.host).result ≠ .error e) ∧
        (c.gather handle member now).2 = none ∧
          Calm p (c.refilled handle member) (c.gather handle member now).1) := by
  unfold gather
  split
  next e heq => exact .inl ⟨e, heq, rfl⟩
  next heq =>
    exact .inr ⟨fun e he => (nomatch heq.symm.trans he), rfl,
      calm_adjust _ handle _ fun _ => ⟨rfl, rfl, rfl, rfl, rfl⟩⟩
  next heq =>
    exact .inr ⟨fun e he => (nomatch heq.symm.trans he), rfl, (calm_note _ _ _).trans
      (calm_adjust _ handle _ fun _ => ⟨rfl, rfl, rfl, rfl, rfl⟩)⟩

theorem refilled_frame (c : Coordinator) (handle : Handle) (member : Member) :
    (c.refilled handle member).roster =
        c.roster.modify handle (fun other =>
          { other with stream := (member.stream.receive c.host).stream }) ∧
      (c.refilled handle member).decoded =
          c.decoded ++ (member.stream.receive c.host).frames ∧
        (c.refilled handle member).host.calls = (member.stream.receive c.host).host.calls ∧
          SameStreams c.host (c.refilled handle member).host ∧
            (c.refilled handle member).outbox = c.outbox := by
  have hstreams := sameStreams_receive member.stream c.host
  unfold refilled countSkipped
  simp only
  split
  · exact ⟨rfl, rfl, rfl, hstreams, rfl⟩
  · exact ⟨rfl, rfl, rfl, ⟨hstreams.waiting, hstreams.count⟩, rfl⟩

/-- A read changes the stream of one member. -/
theorem get?_of_refilled {other : Handle} {member' : Member}
    (hafter : (c.refilled handle member).roster.get? other = some member') :
    (other = handle ∧ member'.stream = (member.stream.receive c.host).stream) ∨
      (other ≠ handle ∧ c.roster.get? other = some member') := by
  rw [(c.refilled_frame handle member).1] at hafter
  obtain ⟨before, hbefore, ⟨hne, rfl⟩ | ⟨hsame, rfl⟩⟩ := Roster.get?_of_modify hafter
  · exact .inr ⟨hne, hbefore⟩
  · exact .inl ⟨hsame, rfl⟩

/-- Whoever is read is still attached before anything is acted on. -/
theorem get?_gather (hget : c.roster.get? handle = some member) (now : Instant) :
    ∃ member', (c.gather handle member now).1.roster.get? handle = some member' ∧
      member'.stream.id = member.stream.id := by
  have hrefilled : (c.refilled handle member).roster.get? handle =
      some { member with stream := (member.stream.receive c.host).stream } := by
    rw [(c.refilled_frame handle member).1, Roster.get?_modify, if_pos rfl, hget]
    rfl
  have hadjusted {f : Member → Member} {d : Coordinator}
      (hroster : d.roster = (c.refilled handle member).roster)
      (hf : ∀ member, (f member).stream = member.stream) :
      ∃ member', (d.modifyMember handle f).roster.get? handle = some member' ∧
        member'.stream.id = member.stream.id := by
    rw [modifyMember, Roster.get?_modify, if_pos rfl, hroster, hrefilled]
    exact ⟨_, rfl, (congrArg FramedStream.id (hf _)).trans (member.stream.id_receive c.host)⟩
  unfold gather
  split
  next => exact ⟨_, hrefilled, member.stream.id_receive c.host⟩
  next => exact hadjusted rfl fun _ => rfl
  next => exact hadjusted rfl fun _ => rfl

/-- At the start nothing has been decoded, and nothing is to be sent. -/
theorem start_empty {config : CoordinatorConfig} (h : Coordinator.start config host = .ok c) :
    c.decoded = [] ∧ c.outbox = [] := by
  unfold Coordinator.start at h
  simp only [bind, Except.bind, pure, Except.pure, throw, throwThe, MonadExceptOf.throw] at h
  repeat' split at h
  all_goals cases h
  exact ⟨rfl, rfl⟩

end Coordinator
end Rendezvous
