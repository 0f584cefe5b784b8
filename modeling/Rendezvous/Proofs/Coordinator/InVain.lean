import Rendezvous.Proofs.Coordinator.Isolation
import Rendezvous.Proofs.Host.Fruitless

/-!
# Rendezvous.Proofs.Coordinator.InVain

**What a coordinator's service does when all its operations would block.** Every latch stands
for an operation that service tries, and a latch that leaves nothing to try is cleared too. So
no stage fails, and each clears the latches that it goes by.

* `serveMember_of_fruitless` is what becomes of one member, and `serveEach_of_fruitless` of
  all, by induction on those that are served.
* `acceptOne_of_fruitless` and `servePackets_of_fruitless` are the two sockets.
-/

namespace Rendezvous

namespace Roster

variable {roster : Roster} {handle other : Handle}

/-- What a member is known to be ready for. -/
def latchOf (roster : Roster) (handle : Handle) : Option Latch :=
  (roster.get? handle).map Member.latch

theorem latchOf_store (roster : Roster) (handle other : Handle) (stream : FramedStream) :
    (roster.modify handle fun member => { member with stream := stream }).latchOf other =
      roster.latchOf other := by
  rw [latchOf, get?_modify, latchOf]
  split
  · simp [Function.comp_def]
  · rfl

theorem latchOf_relatch (roster : Roster) (handle : Handle) (f : Latch → Latch) :
    (roster.modify handle fun member => { member with latch := f member.latch }).latchOf handle =
      (roster.latchOf handle).map f := by
  simp [latchOf, get?_modify, Function.comp_def]

theorem latchOf_takeNext (roster : Roster) (handle other : Handle) :
    (roster.takeNext handle).2.latchOf other = roster.latchOf other := by
  rw [latchOf, get?_takeNext, latchOf]
  split
  · simp [Function.comp_def]
  · rfl

end Roster

namespace Coordinator

variable {c : Coordinator} {handle : Handle} {member : Member}

/-! ### A member -/

theorem latchOf_actOnDecoded (c : Coordinator) (handle other : Handle) :
    (c.actOnDecoded handle).roster.latchOf other = c.roster.latchOf other := by
  refine List.foldlRecOn (motive := fun b : Coordinator =>
    b.roster.latchOf other = c.roster.latchOf other) _ _ rfl fun b hbefore msg _ => ?_
  obtain ⟨entries, slots, hget⟩ := b.get?_actOnControl handle msg other
  rw [← hbefore, Roster.latchOf, hget, Option.map_map]
  rfl

/-- A fruitless read forgets that there is something to read. -/
theorem readMember_of_fruitless (hget : c.roster.get? handle = some member) {now : Instant}
    (h : Added Call.fruitless c.host (c.readMember handle member now).1.host) :
    (c.readMember handle member now).2 = none ∧
      (c.readMember handle member now).1.roster.latchOf handle = some member.latch.withoutRead := by
  have hread := h.trans (.of_calls_eq (calls_readMember c handle member now).symm)
  have hreceive := FramedStream.receive_of_fruitless hread
  rw [readMember_eq, hreceive]
  refine ⟨rfl, ?_⟩
  simp only [latchOf_actOnDecoded, modifyMember]
  rw [Roster.latchOf_relatch, (c.refilled_frame handle member).1, Roster.latchOf_store,
    Roster.latchOf, hget]
  rfl

/-- Settling a write that has to wait forgets that there is room to write. -/
theorem latchOf_settleWrite (c : Coordinator) (handle : Handle) {written : FramedStream.Written}
    (h : written.result = .ok .waiting) :
    (c.settleWrite handle written).roster.latchOf handle =
      (c.roster.latchOf handle).map Latch.withoutWrite := by
  unfold settleWrite
  rw [h]
  simp only [clearMemberWrite, modifyMember]
  rw [Roster.latchOf_relatch, Roster.latchOf_store]

theorem host_settleWrite (c : Coordinator) (handle : Handle) (written : FramedStream.Written) :
    (c.settleWrite handle written).host = written.host :=
  (settleWrite_frame c handle written).2.1

theorem continueWrite_of_fruitless (hflight : member.stream.hasInFlight = true)
    (h : Added Call.fruitless c.host (c.continueWrite handle member).1.host) :
    (c.continueWrite handle member).2 = none ∧
      (c.continueWrite handle member).1.roster.latchOf handle =
        (c.roster.latchOf handle).map Latch.withoutWrite := by
  unfold continueWrite at h ⊢
  have hwait : (member.stream.resume c.host).result = .ok .waiting := by
    refine FramedStream.resume_of_fruitless hflight (h.trans (.of_calls_eq ?_))
    simp only
    split <;> rw [host_settleWrite]
  simp only [hwait]
  exact ⟨trivial, latchOf_settleWrite c handle hwait⟩

theorem writeNext_of_fruitless (hc : Consistent c)
    (h : Added Call.fruitless c.host (c.writeNext handle member).1.host) :
    (c.writeNext handle member).2 = none ∧
      (c.writeNext handle member).1.roster.latchOf handle =
        (c.roster.latchOf handle).map Latch.withoutWrite := by
  unfold writeNext at h ⊢
  have htake := c.roster.latchOf_takeNext handle handle
  rcases htaken : c.roster.takeNext handle with ⟨_ | msg, roster⟩
  · rw [htaken] at htake
    simp only [clearMemberWrite, modifyMember]
    rw [Roster.latchOf_relatch, htake]
    exact ⟨trivial, rfl⟩
  · rw [htaken] at htake h
    obtain ⟨frame, hframe⟩ := encode_of_takeNext hc.encodable htaken
    have hwait : (member.stream.transmit msg c.scratch c.host).1.result = .ok .waiting := by
      refine FramedStream.transmit_of_fruitless hframe (h.trans (.of_calls_eq ?_))
      simp only
      split
      · rw [host_settleWrite]
      · rw [(alike_countSent _ _ _).calls, host_settleWrite]
    simp only [hwait]
    rw [(alike_countSent _ _ _).roster, latchOf_settleWrite _ handle hwait, htake]
    exact ⟨trivial, rfl⟩

/-- A fruitless write forgets that there is room to write, and so does one that finds nothing
to write. -/
theorem writeMember_of_fruitless (hc : Consistent c)
    (h : Added Call.fruitless c.host (c.writeMember handle).1.host) :
    (c.writeMember handle).2 = none ∧
      (c.writeMember handle).1.roster.latchOf handle =
        (c.roster.latchOf handle).map Latch.withoutWrite := by
  unfold writeMember at h ⊢
  cases hget : c.roster.get? handle with
  | none => simp [Roster.latchOf, hget]
  | some member =>
      simp only [hget] at h ⊢
      by_cases hlatch : member.latch.writable = true
      · simp only [hlatch, Bool.not_true, Bool.false_eq_true, if_false] at h ⊢
        split at h
        next hflight =>
          rw [if_pos hflight]
          exact continueWrite_of_fruitless hflight h
        next hflight =>
          rw [if_neg hflight]
          exact writeNext_of_fruitless hc h
      · -- Without room to write nothing is attempted, and there is nothing to forget.
        simp [Roster.latchOf, hget, hlatch, Latch.withoutWrite_of_not_writable hlatch]

/-- Serving a member in vain clears its latch. -/
theorem serveMember_of_fruitless (hc : Consistent c) {now : Instant}
    (h : Added Call.fruitless c.host (c.serveMember handle now).1.host) :
    (c.serveMember handle now).2 = none ∧
      (c.serveMember handle now).1.roster.latchOf handle =
        (c.roster.latchOf handle).map fun _ => .clear := by
  have hbefore := c.calls_readMember_prefix handle
  unfold serveMember at h ⊢
  cases hget : c.roster.get? handle with
  | none => simp [Roster.latchOf, hget]
  | some member =>
      simp only [hget] at h ⊢
      have hlatch : c.roster.latchOf handle = some member.latch := by rw [Roster.latchOf, hget]; rfl
      split at h
      next hreadable =>
        rw [if_pos hreadable]
        have hread : Added Call.fruitless c.host (c.readMember handle member now).1.host := by
          refine (h.split (hbefore member now) ?_).1
          rcases c.readMember handle member now with ⟨read, _ | e⟩
          · exact (calm_writeMember (p := nobody) read handle).calls
          · exact List.prefix_rfl
        obtain ⟨hfine, hforgot⟩ := readMember_of_fruitless hget hread
        have hconsistent := hc.readMember hget now
        rcases hresult : c.readMember handle member now with ⟨read, failure⟩
        rw [hresult] at hfine hforgot hconsistent h hread
        obtain rfl : failure = none := hfine
        -- The read does not fail, so that the write comes next, and the rest of the calls are its.
        have hwrite := writeMember_of_fruitless hconsistent
          (h.split (by
            obtain ⟨new, hnew, -⟩ := hread
            exact hnew ▸ List.prefix_append ..) (calm_writeMember (p := nobody) read handle).calls).2
        refine ⟨hwrite.1, ?_⟩
        rw [hwrite.2, hforgot, hlatch]
        rfl
      next hreadable =>
        rw [if_neg hreadable]
        have hwrite := writeMember_of_fruitless hc h
        refine ⟨hwrite.1, ?_⟩
        rw [hwrite.2, hlatch, Option.map_some, Option.map_some, Latch.withoutWrite,
          Bool.eq_false_iff.2 hreadable]
        rfl

theorem listenerLatch_actOnDecoded (c : Coordinator) (handle : Handle) :
    (c.actOnDecoded handle).listenerLatch = c.listenerLatch := by
  refine List.foldlRecOn (motive := fun b : Coordinator => b.listenerLatch = c.listenerLatch) _ _
    rfl fun b hbefore msg _ => hbefore ▸ ?_
  unfold actOnControl
  split
  next => rfl
  next =>
    cases msg with
    | connect entry =>
        simp only
        split <;> rfl
    | _ => rfl

theorem listenerLatch_readMember (c : Coordinator) (handle : Handle) (member : Member)
    (now : Instant) : (c.readMember handle member now).1.listenerLatch = c.listenerLatch := by
  have hrefilled : (c.refilled handle member).listenerLatch = c.listenerLatch :=
    (alike_countSkipped _ _ _).listenerLatch
  rw [readMember_eq_gather, listenerLatch_actOnDecoded, gather]
  split <;> exact hrefilled

theorem listenerLatch_writeMember (c : Coordinator) (handle : Handle) :
    (c.writeMember handle).1.listenerLatch = c.listenerLatch := by
  have hsettled (c : Coordinator) (written : FramedStream.Written) :
      (c.settleWrite handle written).listenerLatch = c.listenerLatch :=
    (settleWrite_frame c handle written).2.2.1
  unfold writeMember
  split
  next => rfl
  next =>
    split
    next => rfl
    next =>
      split
      next =>
        unfold continueWrite
        simp only
        split <;> exact hsettled c _
      next =>
        unfold writeNext
        split
        next => rfl
        next roster _ =>
          simp only
          split
          · exact hsettled { c with roster := roster, scratch := _ } _
          · rw [(alike_countSent _ _ _).listenerLatch]
            exact hsettled { c with roster := roster, scratch := _ } _

theorem listenerLatch_serveMember (c : Coordinator) (handle : Handle) (now : Instant) :
    (c.serveMember handle now).1.listenerLatch = c.listenerLatch := by
  unfold serveMember
  split
  next => rfl
  next member _ =>
    have hread := c.listenerLatch_readMember handle member now
    split
    next =>
      split
      next heq => rwa [heq] at hread
      next heq =>
        rw [heq] at hread
        rw [listenerLatch_writeMember, hread]
    next => exact listenerLatch_writeMember c handle

theorem serveMember_before_serveOrDismiss (c : Coordinator) (handle : Handle) (now : Instant) :
    (c.serveMember handle now).1.host.calls <+: (serveOrDismiss now c handle).host.calls := by
  unfold serveOrDismiss
  rcases c.serveMember handle now with ⟨served, _ | e⟩
  · exact List.prefix_rfl
  · exact (calm_dismiss (p := anyone) served trivial (.channel e)).calls

/-- Serving members in vain clears their latches and leaves those of all others. -/
theorem serveEach_of_fruitless (hc : Consistent c) {now : Instant} {handles : List Handle}
    (h : Added Call.fruitless c.host (handles.foldl (serveOrDismiss now) c).host) :
    (∀ other, (handles.foldl (serveOrDismiss now) c).roster.latchOf other =
        if other ∈ handles then (c.roster.latchOf other).map fun _ => .clear
        else c.roster.latchOf other) ∧
      (handles.foldl (serveOrDismiss now) c).listenerLatch = c.listenerLatch := by
  induction handles generalizing c with
  | nil => simp
  | cons handle handles ih =>
      rw [List.foldl_cons] at h ⊢
      obtain ⟨hfirst, hrest⟩ := h.split (calls_serveEach c now [handle]) (calls_serveEach _ now _)
      have hserved := (hfirst.split (calls_serveMember c handle now)
        (serveMember_before_serveOrDismiss c handle now)).1
      obtain ⟨hfine, hclear⟩ := serveMember_of_fruitless hc hserved
      -- Operations in vain are no failures, and nobody is dismissed.
      have hstays : serveOrDismiss now c handle = (c.serveMember handle now).1 := by
        unfold serveOrDismiss
        rcases hresult : c.serveMember handle now with ⟨served, failure⟩
        rw [hresult] at hfine
        cases hfine
        rfl
      obtain ⟨hlatches, hlistener⟩ := ih (hc.serveOrDismiss now handle) hrest
      rw [hstays] at hlatches hlistener ⊢
      refine ⟨fun other => ?_, hlistener.trans (listenerLatch_serveMember c handle now)⟩
      rw [hlatches]
      by_cases hsame : other = handle
      · subst hsame
        rw [hclear]
        simp [Function.comp_def]
      · obtain ⟨slots, hslots⟩ := Bystanding.serveMember c handle now other hsame
        have hother : (c.serveMember handle now).1.roster.latchOf other =
            c.roster.latchOf other := by
          rw [Roster.latchOf, hslots, Option.map_map]
          rfl
        simp [hother, hsame]

/-- Serving everybody in vain clears all latches. -/
theorem serveMembers_of_fruitless (h : Consistent c) {now : Instant}
    (hfruitless : Added Call.fruitless c.host (c.serveMembers now).host)
    (hget : (c.serveMembers now).roster.get? handle = some member) : member.latch = .clear := by
  obtain ⟨hlatches, -⟩ := serveEach_of_fruitless h hfruitless
  have hlatch : (c.serveMembers now).roster.latchOf handle = _ := hlatches handle
  have hsome : (c.serveMembers now).roster.latchOf handle = some member.latch := by
    rw [Roster.latchOf, hget]
    rfl
  rw [hsome] at hlatch
  cases hbefore : c.roster.get? handle with
  | none => simp [Roster.latchOf, hbefore] at hlatch
  | some before =>
      rw [if_pos ((Roster.mem_order h.roster).2 ⟨before, hbefore⟩), Roster.latchOf, hbefore] at hlatch
      exact Option.some.inj hlatch

/-! ### The sockets -/

theorem accept_prefix_acceptOne (hlatch : c.listenerLatch = true) (now : Instant) :
    c.host.accept.2.calls <+: (c.acceptOne now).state.host.calls := by
  unfold acceptOne
  rw [hlatch]
  rcases c.host.accept with ⟨kind | ⟨id, addr⟩, host⟩
  · have hfails : host.calls <+: (if kind = .interrupted ∨ kind = .connectionAborted then
        .going (({ c with host := host } : Coordinator).note .debug s!"Transient accept error: {kind}")
        else .stopped { c with host := host } (.io kind) : Stage Coordinator).state.host.calls := by
      split <;> exact List.prefix_rfl
    cases kind with
    | wouldBlock => exact List.prefix_rfl
    | _ => exact hfails
  · exact (calm_welcome (p := anyone) { c with listenerLatch := true } host id addr now trivial).calls

/-- A fruitless accept forgets that there is a connection to accept. -/
theorem acceptOne_of_fruitless {now : Instant}
    (h : Added Call.fruitless c.host (c.acceptOne now).state.host) :
    ∃ host, c.acceptOne now = .going { c with host := host, listenerLatch := false } := by
  cases hlatch : c.listenerLatch with
  | false => exact ⟨c.host, by simp [acceptOne, ← hlatch]⟩
  | true =>
      have hcalls := c.host.calls_accept
      have haccept := (h.split (hcalls ▸ List.prefix_append ..)
        (accept_prefix_acceptOne hlatch now)).1
      have hanswer := eq_wouldBlock_of_declines (haccept.last (.of_call hcalls))
      unfold acceptOne
      rcases hresult : c.host.accept with ⟨kind | connection, host⟩
      · rw [hresult] at hanswer
        cases hanswer
        exact ⟨host, by simp [hlatch]⟩
      · rw [hresult] at hanswer
        cases hanswer

/-- A fruitless receive forgets that there is a datagram to receive. -/
theorem receivePacket_of_fruitless
    (h : Added Call.fruitless c.host c.receivePacket.state.host) :
    ∃ host, c.receivePacket =
      .going { c with host := host, packetLatch := c.packetLatch.withoutRead } := by
  unfold receivePacket at h ⊢
  cases hlatch : c.packetLatch.readable with
  | false =>
      rw [Latch.withoutRead_of_not_readable (Bool.eq_false_iff.1 hlatch)]
      exact ⟨c.host, rfl⟩
  | true =>
      simp only [hlatch, Bool.not_true, Bool.false_eq_true, if_false] at h ⊢
      have hreceive : Added Call.fruitless c.host (recvDatagram c.host).2 := by
        refine h.trans (.of_calls_eq ?_)
        split
        next heq => rw [heq]; rfl
        next heq => rw [heq]; rfl
        next heq => rw [heq]; rfl
        next msg sender _ heq =>
          rw [heq]
          unfold actOnPacket
          simp only
          split <;> rfl
      have hanswer := recvDatagram_of_fruitless hreceive
      rcases hresult : recvDatagram c.host with ⟨answer, host⟩
      rw [hresult] at hanswer
      cases hanswer
      exact ⟨host, rfl⟩

/-- A fruitless send forgets that there is room to send. -/
theorem sendPacket_of_fruitless (hc : ∀ item ∈ c.outbox, ∃ addr, item.1 = .stunResponse addr)
    (h : Added Call.fruitless c.host c.sendPacket.state.host) :
    ∃ host scratch, c.sendPacket =
      .going
        { c with
          host := host
          scratch := scratch
          packetLatch := c.packetLatch.withoutWrite } := by
  unfold sendPacket at h ⊢
  cases hlatch : c.packetLatch.writable with
  | false =>
      rw [Latch.withoutWrite_of_not_writable (Bool.eq_false_iff.1 hlatch)]
      exact ⟨c.host, c.scratch, rfl⟩
  | true =>
      simp only [hlatch, Bool.not_true, Bool.false_eq_true, if_false] at h ⊢
      cases hbox : c.outbox with
      | nil => exact ⟨c.host, c.scratch, rfl⟩
      | cons item rest =>
          obtain ⟨msg, target⟩ := item
          obtain ⟨addr, haddr⟩ := hc (msg, target) (hbox ▸ List.mem_cons_self)
          obtain rfl : msg = .stunResponse addr := haddr
          obtain ⟨frame, hframe, hlength⟩ := exists_encode_stunResponse addr
          simp only [hbox] at h ⊢
          have hsend : Added Call.fruitless c.host
              (sendDatagram (.stunResponse addr) target c.scratch c.host).2.2 := by
            refine h.trans (.of_calls_eq ?_)
            split <;> (next heq => rw [heq]; rfl)
          have hanswer := sendDatagram_of_fruitless hframe hlength hsend
          rcases hresult : sendDatagram (.stunResponse addr) target c.scratch c.host with
            ⟨answer, scratch, host⟩
          rw [hresult] at hanswer
          cases hanswer
          exact ⟨host, scratch, rfl⟩

/-- Fruitless work on the packet socket clears its latch. -/
theorem servePackets_of_fruitless (hc : Consistent c)
    (h : Added Call.fruitless c.host c.servePackets.state.host) :
    ∃ host scratch, c.servePackets =
      .going { c with host := host, scratch := scratch, packetLatch := .clear } := by
  obtain ⟨hreceive, hsend⟩ := Stage.added_of_andThen host
    (calm_receivePacket (p := nobody) c).calls (fun b => (calm_sendPacket (p := nobody) b).calls) h
  obtain ⟨received, hreceived⟩ := receivePacket_of_fruitless hreceive
  rw [hreceived] at hsend
  rw [servePackets, hreceived]
  obtain ⟨sent, scratch, hsent⟩ := sendPacket_of_fruitless (c := {
    c with host := received, packetLatch := c.packetLatch.withoutRead }) hc.answers (hsend rfl)
  exact ⟨sent, scratch, hsent⟩

end Coordinator
end Rendezvous
