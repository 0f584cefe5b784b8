import Rendezvous.Proofs.Coordinator.Pieces
import Rendezvous.Proofs.Host.Datagrams
import Rendezvous.Proofs.Memory.SlabCapacity

/-!
# Rendezvous.Proofs.Coordinator.Tally

**What each piece of the loop's work does to the counters.** The `Tally` of a coordinator is
what the counters are held against: its configuration, the datagrams that wait, the number of
members, and the counters themselves. Most of the loop's functions leave it alone, and make
only calls of which nothing comes that is counted (`Plain`). The others are

* `acceptOne_tally` and `dismiss_tally`: a connection is attached or lost;
* `refilled_tally`: bytes come in, and garbage is skipped;
* `actOnControl_tally`: a message is acted on;
* `receivePacket_tally` and `sendPacket_tally`: a datagram comes in or goes out.
-/

namespace Rendezvous

/-- Does nothing come of a call that is counted: no connection, no bytes, no datagram in or
out, and no connection registered or forgotten? -/
def Call.uncounted : Call → Bool
  | .accept (.ok _) | .read _ _ (.ok _) | .recv _ (.ok _) | .send _ _ (.ok _) => false
  | .register (.stream _) .. | .deregister .. => false
  | _ => true

theorem Call.uncounted_of_reregisters {call : Call} (h : call.reregisters = true) :
    call.uncounted = true := by
  unfold reregisters at h
  split at h
  · rfl
  · cases h

theorem Call.uncounted_of_polls {call : Call} (h : call.polls = true) :
    call.uncounted = true := by
  unfold polls at h
  split at h
  · rfl
  · cases h

theorem Call.uncounted_of_writesTo {call : Call} {id : StreamId} (h : call.writesTo id = true) :
    call.uncounted = true := by
  unfold writesTo at h
  split at h
  · rfl
  · cases h

/-! ### How many members there are -/

namespace Roster

variable {roster : Roster} {handle : Handle} {member : Member}

theorem size_takeNext (roster : Roster) (handle : Handle) :
    (roster.takeNext handle).2.size = roster.size := by
  unfold takeNext
  split
  simp only
  split <;> rfl

theorem size_enroll (roster : Roster) (stream : FramedStream) (addr : SocketAddr) (timer : Timer) :
    (roster.enroll stream addr timer).val.2.size = roster.size + 1 :=
  Slab.size_insert roster.members _

theorem size_detach (hget : roster.get? handle = some member) :
    (roster.detach handle).2.size = roster.size - 1 := by
  rw [size, (detach_of_get? hget).2.1]
  exact Slab.size_remove hget

/-- The size counts the members. -/
theorem length_order (h : roster.WellFormed) : roster.order.length = roster.size :=
  h.members.length_keys

theorem size_pos (h : roster.WellFormed) (hget : roster.get? handle = some member) :
    0 < roster.size := by
  rw [← length_order h]
  exact List.length_pos_of_mem ((mem_order h).2 ⟨member, hget⟩)

theorem size_introduce (h : roster.WellFormed) (handle : Handle) (entry : PeerEntry) :
    (roster.introduce handle entry).val.2.size = roster.size := by
  rw [← length_order (h.introduce handle entry), order_introduce h, length_order h]

end Roster

namespace Coordinator

/-- What the counters of a coordinator are held against, and the counters. -/
structure Tally where
  config : CoordinatorConfig
  outbox : Outbox
  members : Nat
  activePeers : UInt64
  accepted : UInt64
  announces : UInt64
  stunResponses : UInt64
  disconnects : UInt64
  framingResyncs : UInt64

/-- The tally of a coordinator. -/
def tally (c : Coordinator) : Tally where
  config := c.config
  outbox := c.outbox
  members := c.roster.size
  activePeers := c.counters.activePeers
  accepted := c.counters.accepted
  announces := c.counters.announces
  stunResponses := c.counters.stunResponses
  disconnects := c.counters.disconnects
  framingResyncs := c.counters.framingResyncs

/-- A stage that leaves the tally alone, and of whose calls nothing comes that is counted. -/
structure Plain (c c' : Coordinator) : Prop where
  tally : c'.tally = c.tally
  calls : Added Call.uncounted c.host c'.host

variable {a b c c' : Coordinator} {handle : Handle} {member : Member} {host : Host}

theorem Plain.refl (c : Coordinator) : Plain c c := ⟨rfl, .refl _⟩

theorem Plain.trans (hab : Plain a b) (hbc : Plain b c) : Plain a c :=
  ⟨hbc.tally.trans hab.tally, hab.calls.trans hbc.calls⟩

/-- Nothing is asked of the system, and nothing is counted. -/
theorem Plain.silent (htally : c'.tally = c.tally) (hcalls : c'.host.calls = c.host.calls) :
    Plain c c' :=
  ⟨htally, .of_calls_eq hcalls⟩

theorem tally_of_size_eq {roster : Roster} (h : roster.size = c.roster.size) :
    ({ c with roster := roster } : Coordinator).tally = c.tally := by
  simp [Coordinator.tally, h]

theorem plain_note (c : Coordinator) (level : Level) (text : String) :
    Plain c (c.note level text) := .silent rfl rfl

theorem plain_modifyMember (c : Coordinator) (handle : Handle) (f : Member → Member) :
    Plain c (c.modifyMember handle f) := .silent rfl rfl

/-- At the start nothing waits, nobody is attached, and nothing has been counted. -/
theorem tally_start {config : CoordinatorConfig} (h : Coordinator.start config host = .ok c) :
    c.tally = ⟨config, [], 0, 0, 0, 0, 0, 0, 0⟩ := by
  unfold Coordinator.start at h
  simp only [bind, Except.bind, pure, Except.pure, throw, throwThe, MonadExceptOf.throw] at h
  repeat' split at h
  all_goals cases h
  rfl

/-! ### Before and after the poll -/

theorem plain_supply (c : Coordinator) (supply : Supply) :
    Plain c { c with host := c.host.supply supply } :=
  .silent rfl (c.host.calls_supply supply)

theorem plain_watchPackets (c : Coordinator) : Plain c c.watchPackets.state := by
  unfold watchPackets
  simp only
  split
  next => exact .refl c
  next =>
    split
    next heq => exact ⟨rfl, (added_reregister heq).mono fun _ => Call.uncounted_of_reregisters⟩
    next heq => exact ⟨rfl, (added_reregister heq).mono fun _ => Call.uncounted_of_reregisters⟩

theorem plain_watchMember (c : Coordinator) (failed : List (Handle × IoKind)) (handle : Handle) :
    Plain c (watchMember (c, failed) handle).1 := by
  unfold watchMember
  simp only
  split
  next => exact .refl c
  next =>
    split
    next => exact .refl c
    next =>
      split
      next heq => exact ⟨rfl, (added_reregister heq).mono fun _ => Call.uncounted_of_reregisters⟩
      next heq => exact ⟨rfl, (added_reregister heq).mono fun _ => Call.uncounted_of_reregisters⟩

theorem plain_poll (c : Coordinator) (timeout : Duration) (turn : Turn) :
    Plain c { c with host := (c.host.poll timeout turn).2 } :=
  ⟨rfl, (added_poll c.host timeout turn).mono fun _ => Call.uncounted_of_polls⟩

theorem plain_latch (c : Coordinator) (event : Event) : Plain c (c.latch event) := by
  unfold latch
  split
  · exact .silent rfl rfl
  · split
    · exact .silent rfl rfl
    · split
      · exact plain_modifyMember c _ _
      · exact plain_note c _ _

/-! ### Writing -/

theorem tally_settleWrite (c : Coordinator) (handle : Handle) (written : FramedStream.Written) :
    (c.settleWrite handle written).tally = c.tally ∧
      (c.settleWrite handle written).host = written.host := by
  unfold settleWrite
  simp only
  split <;> exact ⟨rfl, rfl⟩

theorem tally_countSent (c : Coordinator) (msg : Message) (addr : SocketAddr) :
    (c.countSent msg addr).tally = c.tally ∧
      (c.countSent msg addr).host.calls = c.host.calls := by
  unfold countSent
  simp only
  split <;> exact ⟨rfl, rfl⟩

theorem plain_continueWrite (c : Coordinator) (handle : Handle) (member : Member) :
    Plain c (c.continueWrite handle member).1 := by
  have hcalls := (member.stream.added_resume c.host).mono fun _ => Call.uncounted_of_writesTo
  obtain ⟨htally, hhost⟩ := c.tally_settleWrite handle (member.stream.resume c.host)
  have hsettled : Plain c (c.settleWrite handle (member.stream.resume c.host)) :=
    ⟨htally, hhost ▸ hcalls⟩
  unfold continueWrite
  simp only
  split <;> exact hsettled

theorem plain_writeNext (c : Coordinator) (handle : Handle) (member : Member) :
    Plain c (c.writeNext handle member).1 := by
  have hsize := c.roster.size_takeNext handle
  unfold writeNext
  rcases hnext : c.roster.takeNext handle with ⟨_ | msg, roster⟩
  · rw [hnext] at hsize
    exact .silent (tally_of_size_eq hsize) rfl
  · rw [hnext] at hsize
    have hcalls := (member.stream.added_transmit msg c.scratch c.host).mono fun _ =>
      Call.uncounted_of_writesTo
    obtain ⟨htally, hhost⟩ := tally_settleWrite
      { c with roster := roster, scratch := (member.stream.transmit msg c.scratch c.host).2 }
      handle (member.stream.transmit msg c.scratch c.host).1
    have hsettled : Plain c (settleWrite
        { c with roster := roster, scratch := (member.stream.transmit msg c.scratch c.host).2 }
        handle (member.stream.transmit msg c.scratch c.host).1) :=
      ⟨htally.trans (tally_of_size_eq hsize), hhost ▸ hcalls⟩
    simp only
    split
    · exact hsettled
    · exact hsettled.trans (.silent (tally_countSent _ _ _).1 (tally_countSent _ _ _).2)

theorem plain_writeMember (c : Coordinator) (handle : Handle) :
    Plain c (c.writeMember handle).1 := by
  unfold writeMember
  split
  next => exact .refl c
  next member _ =>
    split
    · exact .refl c
    · split
      · exact plain_continueWrite c handle member
      · exact plain_writeNext c handle member

/-! ### Attaching and losing a member -/

/-- A connection becomes a member, unless the poller refuses it. Then it is taken off the
roster again. -/
theorem welcome_tally (hwf : c.roster.WellFormed) (id : StreamId) (addr : SocketAddr)
    (now : Instant) :
    ∃ token, (∃ kind, (c.welcome id addr now).tally = c.tally ∧
        (c.welcome id addr now).host.calls = c.host.calls ++
          [.register (.stream id) token .read (some kind), .close id]) ∨
      ((c.welcome id addr now).tally =
          { c.tally with
            members := c.roster.size + 1
            activePeers := UInt64.ofNat (c.roster.size + 1)
            accepted := c.counters.accepted + 1 } ∧
        (c.welcome id addr now).host.calls = c.host.calls ++
          [.register (.stream id) token .read none]) := by
  have hsize := c.roster.size_enroll (.ofStream id) addr ⟨now, c.config.idleTimeout⟩
  have hget := Roster.get?_enroll hwf (.ofStream id) addr ⟨now, c.config.idleTimeout⟩
  unfold welcome
  rcases hattached : c.roster.enroll (.ofStream id) addr ⟨now, c.config.idleTimeout⟩ with
    ⟨⟨fresh, roster⟩, log⟩
  rw [hattached] at hsize hget
  have hregister := (c.host.write log).calls_register (.stream id) (tokenOfMember fresh) .read
  simp only at hsize hget ⊢
  refine ⟨tokenOfMember fresh, ?_⟩
  split
  next kind watched hanswer =>
    have hfresh := hget fresh
    rw [if_pos rfl] at hfresh
    have hdetached := Roster.size_detach hfresh
    rw [hsize, Nat.add_sub_cancel] at hdetached
    have hwatched : watched.calls = c.host.calls ++ [_] := hanswer ▸ hregister
    refine .inl ⟨kind, tally_of_size_eq hdetached, ?_⟩
    change watched.calls ++ [.close id] = _
    rw [hwatched, List.append_assoc]
    rfl
  next watched hanswer =>
    have hwatched : watched.calls = c.host.calls ++ [_] := hanswer ▸ hregister
    refine .inr ⟨?_, hwatched⟩
    rw [← hsize]
    rfl

/-- A connection that is accepted becomes a member, unless the poller refuses it. -/
theorem acceptOne_tally (hwf : c.roster.WellFormed) (now : Instant) :
    Plain c (c.acceptOne now).state ∨
      ∃ id token, (∃ kind, (c.acceptOne now).state.tally = c.tally ∧
          (c.acceptOne now).state.host.calls = c.host.calls ++
            [.accept (.ok id), .register (.stream id) token .read (some kind), .close id]) ∨
        ((c.acceptOne now).state.tally =
            { c.tally with
              members := c.roster.size + 1
              activePeers := UInt64.ofNat (c.roster.size + 1)
              accepted := c.counters.accepted + 1 } ∧
          (c.acceptOne now).state.host.calls = c.host.calls ++
            [.accept (.ok id), .register (.stream id) token .read none]) := by
  have hfailed {kind : IoKind} {next : Host} (h : c.host.accept = (.error kind, next)) :
      Added Call.uncounted c.host next := .of_call (accept_error h).2 rfl
  unfold acceptOne
  split
  next => exact .inl (.refl c)
  next =>
    split
    next id addr next heq =>
      have hcalls (more : List Call) :
          next.calls ++ more = c.host.calls ++ (.accept (.ok id) :: more) := by
        rw [(accept_ok heq).2.2, List.append_assoc]
        rfl
      obtain ⟨token, hwelcome⟩ := @welcome_tally { c with host := next } hwf id addr now
      refine .inr ⟨id, token, ?_⟩
      rcases hwelcome with ⟨kind, htally, hadded⟩ | ⟨htally, hadded⟩
      · exact .inl ⟨kind, htally, hadded.trans (hcalls _)⟩
      · exact .inr ⟨htally, hadded.trans (hcalls _)⟩
    next heq => exact .inl ⟨rfl, hfailed heq⟩
    next heq =>
      have hadded := hfailed heq
      simp only
      split
      · exact .inl ⟨rfl, hadded⟩
      · exact .inl ⟨rfl, hadded⟩

/-- A member that is lost counts as one connection dropped. -/
theorem dismiss_tally (hget : c.roster.get? handle = some member) (departure : Departure) :
    (c.dismiss handle departure).tally =
        { c.tally with
          members := c.roster.size - 1
          activePeers := UInt64.ofNat (c.roster.size - 1)
          disconnects := c.counters.disconnects + 1 } ∧
      ∃ failure, (c.dismiss handle departure).host.calls =
        c.host.calls ++
          [.deregister (.stream member.stream.id) failure, .close member.stream.id] := by
  obtain ⟨-, ⟨failure, hcalls⟩, -⟩ := dismiss_frame hget departure
  refine ⟨?_, failure, by rw [hcalls, List.append_assoc]; rfl⟩
  have hsize := Roster.size_detach hget
  have hmember := (Roster.detach_of_get? hget).1
  unfold dismiss
  rcases hdetach : c.roster.detach handle with ⟨removed, roster⟩
  rw [hdetach] at hsize hmember
  obtain rfl : removed = _ := hmember
  simp only at hsize ⊢
  simp only [tally, countMembers, hsize]

/-! ### Reading and acting -/

theorem added_refilled (c : Coordinator) (handle : Handle) (member : Member) :
    Added (Call.readsFrom member.stream.id) c.host (c.refilled handle member).host := by
  obtain ⟨new, hnew, hall⟩ := member.stream.added_receive c.host
  exact ⟨new, (c.refilled_frame handle member).2.2.1.trans hnew, hall⟩

/-- Garbage that a read skips is counted, also when the read fails. -/
theorem refilled_tally (c : Coordinator) (handle : Handle) (member : Member) :
    (c.refilled handle member).tally =
      { c.tally with
        framingResyncs := c.counters.framingResyncs + UInt64.ofNat
          ((member.stream.receive c.host).stream.skipped - member.stream.skipped) } := by
  unfold refilled countSkipped
  simp only
  split
  next hnone => simp [tally, modifyMember, Roster.modify, Roster.size, Slab.modify, hnone]
  next => rfl

/-- Once bytes have been read, nothing more is counted before they are acted on. -/
theorem gather_tally (c : Coordinator) (handle : Handle) (member : Member) (now : Instant) :
    (c.gather handle member now).1.tally = (c.refilled handle member).tally ∧
      (c.gather handle member now).1.host.calls = (member.stream.receive c.host).host.calls := by
  rw [← (c.refilled_frame handle member).2.2.1]
  unfold gather
  split <;> exact ⟨rfl, rfl⟩

/-- How many others were told of an entry that was acted on; nothing if it was not
announced. -/
def Dispatch.told (d : Dispatch) : Option Nat :=
  match d.msg with
  | .connect entry => (d.state.roster.introduce d.handle entry).val.1
  | _ => none

/-- An announcement is counted when it is not ignored. -/
theorem actOnControl_tally (hwf : c.roster.WellFormed) (handle : Handle) (msg : Message) :
    (c.actOnControl handle msg).tally =
      { c.tally with
        announces := c.counters.announces +
          UInt64.ofNat (Dispatch.told ⟨c, handle, msg⟩).toList.length } := by
  unfold actOnControl Dispatch.told
  cases hget : c.roster.get? handle with
  | none => cases msg <;> simp [tally, Roster.introduce, hget]
  | some member =>
      cases msg with
      | connect entry =>
          have hsize := Roster.size_introduce hwf handle entry
          simp only
          split
          next heq =>
            have htold : (c.roster.introduce handle entry).val.1 = none := heq
            simp [tally, write, note, hsize, htold]
          next heq =>
            have htold : (c.roster.introduce handle entry).val.1 = some _ := heq
            simp [tally, write, note, hsize, htold]
      | _ => simp [tally, note]

/-! ### Datagrams -/

/-- The answer that is owed for a datagram from a sender: for an address request the IPv4 view
of the sender, if there is one, and for anything else nothing. -/
def answerOwed : SocketAddr × Bytes → Option (Message × SocketAddr)
  | (sender, bytes) =>
    if bytes = Message.stunRequest.frame then
      sender.ipv4View.map fun view => (.stunResponse view, sender)
    else none

/-- What is owed for a datagram goes by the message that it decodes to. -/
theorem answerOwed_of_message {sender from' : SocketAddr} {bytes : Bytes} {msg : Message}
    (h : (Datagram.ofBytes sender bytes).val = .message msg from') :
    answerOwed (sender, bytes) =
      if msg = .stunRequest then
        from'.ipv4View.map fun view => (Message.stunResponse view, from')
      else none := by
  obtain ⟨rfl, -⟩ := ofBytes_eq_message h
  have hrequest : msg = .stunRequest ↔ bytes = Message.stunRequest.frame := by
    constructor
    · rintro rfl
      exact (ofBytes_eq_stunRequest_iff.1 h).2
    · intro hframe
      rw [ofBytes_eq_stunRequest_iff.2 ⟨rfl, hframe⟩] at h
      cases h
      rfl
  rw [if_congr hrequest rfl rfl]
  rfl

/-- Nothing is owed for a datagram that is dropped. -/
theorem answerOwed_of_dropped {sender : SocketAddr} {bytes : Bytes}
    (h : (Datagram.ofBytes sender bytes).val = .dropped) : answerOwed (sender, bytes) = none :=
  if_neg fun hframe => by
    rw [ofBytes_eq_stunRequest_iff.2 ⟨rfl, hframe⟩] at h
    cases h

/-- Only for an address request an answer is queued. -/
theorem actOnPacket_tally (c : Coordinator) (msg : Message) (sender : SocketAddr) :
    (c.actOnPacket msg sender).tally =
        { c.tally with
          outbox := c.outbox ++
            (if msg = .stunRequest then
              sender.ipv4View.map fun view => (Message.stunResponse view, sender)
            else none).toList } ∧
      (c.actOnPacket msg sender).host.calls = c.host.calls := by
  unfold actOnPacket
  cases msg with
  | stunRequest =>
      cases hview : sender.ipv4View <;>
        simp [answerPacket, observe, hview, tally, write, note]
  | _ => simp [answerPacket, tally, write]

/-- A datagram that is received is answered as it is owed. -/
theorem receivePacket_tally (c : Coordinator) :
    Added Call.receives c.host c.receivePacket.state.host ∧
      ∃ got, datagramsIn c.receivePacket.state.host.calls = datagramsIn c.host.calls ++ got ∧
        c.receivePacket.state.tally =
          { c.tally with outbox := c.outbox ++ got.filterMap answerOwed } := by
  have hadded := added_recvDatagram c.host
  have hnothing : c.tally = { c.tally with outbox := c.outbox ++ [].filterMap answerOwed } := by
    simp [tally]
  unfold receivePacket
  split
  next => exact ⟨.refl _, [], (List.append_nil _).symm, hnothing⟩
  next =>
    rcases recvDatagram_cases c.host with ⟨hanswer, hin⟩ | ⟨sender, bytes, hanswer, hin⟩
    · -- Nothing came in, and nothing is done but to forget that there might be something.
      split
      next heq =>
        rw [heq] at hadded hin
        exact ⟨hadded, [], hin.trans (List.append_nil _).symm, hnothing⟩
      next heq =>
        rw [heq] at hadded hin
        exact ⟨hadded, [], hin.trans (List.append_nil _).symm, hnothing⟩
      next heq => simp [heq] at hanswer
      next heq => simp [heq] at hanswer
    · split
      next heq => simp [heq] at hanswer
      next heq =>
        rw [heq, Except.ok.injEq] at hanswer
        exact absurd hanswer.symm (Datagram.ofBytes_ne_absent sender bytes)
      next heq =>
        rw [heq] at hadded hin
        rw [heq, Except.ok.injEq] at hanswer
        refine ⟨hadded, [(sender, bytes)], hin, ?_⟩
        rw [List.filterMap_cons_none (answerOwed_of_dropped hanswer.symm)]
        exact hnothing
      next msg from' host heq =>
        rw [heq] at hadded hin
        rw [heq, Except.ok.injEq] at hanswer
        obtain ⟨htally, hcalls⟩ := actOnPacket_tally { c with host := host } msg from'
        refine ⟨hadded.trans (.of_calls_eq hcalls), [(sender, bytes)], ?_, ?_⟩
        · exact (congrArg datagramsIn hcalls).trans hin
        · have hsingle : [(sender, bytes)].filterMap answerOwed =
              (answerOwed (sender, bytes)).toList := by
            cases h : answerOwed (sender, bytes) <;> simp [h]
          rw [hsingle, answerOwed_of_message hanswer.symm]
          exact htally

/-- The oldest datagram in the queue leaves it when it is sent. -/
theorem sendPacket_tally (c : Coordinator) :
    Added Call.sends c.host c.sendPacket.state.host ∧
      ((datagramsOut c.sendPacket.state.host.calls = datagramsOut c.host.calls ∧
          c.sendPacket.state.tally = c.tally) ∨
        ∃ msg target rest, c.outbox = (msg, target) :: rest ∧
          datagramsOut c.sendPacket.state.host.calls =
            datagramsOut c.host.calls ++ [(target, msg.frame)] ∧
          c.sendPacket.state.tally =
            { c.tally with
              outbox := rest
              stunResponses := c.counters.stunResponses +
                match msg with
                | .stunResponse _ => 1
                | _ => 0 }) := by
  unfold sendPacket
  split
  next => exact ⟨.refl _, .inl ⟨rfl, rfl⟩⟩
  next =>
    split
    next => exact ⟨.refl _, .inl ⟨rfl, rfl⟩⟩
    next msg target rest hbox =>
      have hadded := added_sendDatagram msg target c.scratch c.host
      have hout := sendDatagram_cases msg target c.scratch c.host
      split
      next heq =>
        rw [heq] at hadded hout
        exact ⟨hadded, .inl ⟨(hout.resolve_left fun h => nomatch h.1).2, rfl⟩⟩
      next scratch host heq =>
        rw [heq] at hadded hout
        have hsent := (hout.resolve_right fun h => h.1 rfl).2
        have hcalls : (countPacket { c with scratch := scratch, host := host, outbox := rest }
            msg target).host.calls = host.calls := by
          unfold countPacket
          simp only
          split <;> rfl
        refine ⟨hadded.trans (.of_calls_eq hcalls), .inr ⟨msg, target, rest, hbox, ?_, ?_⟩⟩
        · exact (congrArg datagramsOut hcalls).trans hsent
        · cases msg <;> simp [countPacket, tally, note]
      next heq =>
        rw [heq] at hadded hout
        exact ⟨hadded, .inl ⟨(hout.resolve_left fun h => nomatch h.1).2, rfl⟩⟩

/-! ### Any work -/

/-- A relation that holds across every stage but acting on a message, and across most of them
because they are plain. -/
structure Followed (R : Coordinator → Coordinator → Prop) : Prop where
  trans : ∀ {a b c}, R a b → R b c → R a c
  plain : ∀ {c c'}, Plain c c' → R c c'
  accept : ∀ {c} now, Consistent c → R c (c.acceptOne now).state
  dismiss : ∀ {c} handle departure, Consistent c → R c (c.dismiss handle departure)
  refill : ∀ c handle member, R c (c.refilled handle member)
  receive : ∀ c, R c c.receivePacket.state
  send : ∀ {c}, Consistent c → R c c.sendPacket.state

/-- A part of the tally stays as it is if it depends neither on who comes and goes nor on
garbage nor on datagrams. -/
theorem followed_of_view {α : Type} (view : Tally → α)
    (hmembers : ∀ t members activePeers accepted disconnects,
      view { t with members, activePeers, accepted, disconnects } = view t)
    (hgarbage : ∀ t framingResyncs, view { t with framingResyncs } = view t)
    (hdatagrams : ∀ t outbox stunResponses, view { t with outbox, stunResponses } = view t) :
    Followed fun c c' => view c'.tally = view c.tally where
  trans := fun hab hbc => hbc.trans hab
  plain := fun h => by rw [h.tally]
  accept := by
    intro c now h
    rcases acceptOne_tally h.roster now with hplain | ⟨_, _, ⟨_, htally, -⟩ | ⟨htally, -⟩⟩
    · rw [hplain.tally]
    · rw [htally]
    · rw [htally]
      exact hmembers ..
  dismiss := by
    intro c handle departure _
    cases hget : c.roster.get? handle with
    | none => rw [dismiss_of_absent hget]
    | some member =>
        rw [(dismiss_tally hget departure).1]
        exact hmembers ..
  refill := by
    intro c handle member
    rw [refilled_tally]
    exact hgarbage ..
  receive := by
    intro c
    obtain ⟨-, _, -, htally⟩ := c.receivePacket_tally
    rw [htally]
    exact hdatagrams ..
  send := by
    intro c _
    rcases c.sendPacket_tally.2 with ⟨-, htally⟩ | ⟨_, _, _, -, -, htally⟩
    · rw [htally]
    · rw [htally]
      exact hdatagrams ..

theorem Piece.follows {R : Coordinator → Coordinator → Prop} (hR : Followed R)
    (hpiece : Piece c c') (h : Consistent c) : R c c' := by
  cases hpiece with
  | supply supply => exact hR.plain (plain_supply c supply)
  | watchPackets => exact hR.plain (plain_watchPackets c)
  | watchMember failed handle => exact hR.plain (plain_watchMember c failed handle)
  | poll timeout turn => exact hR.plain (plain_poll c timeout turn)
  | latch event => exact hR.plain (plain_latch c event)
  | accept now => exact hR.accept now h
  | @read handle member now _ _ =>
      obtain ⟨htally, hcalls⟩ := c.gather_tally handle member now
      exact hR.trans (hR.refill c handle member) (hR.plain (.silent htally
        (hcalls.trans (c.refilled_frame handle member).2.2.1.symm)))
  | @lose handle member e present _ =>
      have hcleared : R c { c.refilled handle member with decoded := [] } :=
        hR.trans (hR.refill c handle member) (hR.plain (.silent rfl rfl))
      exact hR.trans hcleared (hR.dismiss handle (.channel e) (h.refilled present).clear)
  | write => exact hR.plain (plain_writeMember c _)
  | abort =>
      exact hR.trans (hR.plain (plain_writeMember c _))
        (hR.dismiss _ _ (h.calm (calm_writeMember (p := nobody) c _)))
  | dismiss handle departure => exact hR.dismiss handle departure h
  | receive => exact hR.receive c
  | send => exact hR.send h
  | elapse lag => exact hR.plain (.silent rfl rfl)
  | release level => exact hR.plain (.silent rfl rfl)

/-- What holds across every stage, also acting on a message, holds across any work. -/
theorem Work.follows {R : Coordinator → Coordinator → Prop} (hR : Followed R)
    (act : ∀ {c} handle msg, Consistent c → R c (c.actOnControl handle msg))
    {done : List Dispatch} (h : Work a done c) (ha : Consistent a) : R a c :=
  h.consistent_induction ha (hR.plain (.refl a))
    (fun hc hpiece h => hR.trans h (hpiece.follows hR hc))
    fun handle msg hc h => hR.trans h (act handle msg hc)

end Coordinator
end Rendezvous
