import Rendezvous.Proofs.Coordinator.Tally
import Rendezvous.Proofs.Coordinator.WakeUp

/-!
# Rendezvous.Proofs.Coordinator.Answers

**Address requests are answered, each once and in order.** Datagrams are received and sent
one at a time, and what cannot be sent waits while more comes in. `Dealt` says what became of
datagrams between two states: what is owed for those received was put at the end of the
queue, and those sent were taken from its front. Whatever the loop does deals with datagrams
so (`followed_dealt`), hence any run does (`answers_in_order`).
-/

namespace Rendezvous

theorem Call.datagramIn?_of_uncounted {call : Call} (h : call.uncounted = true) :
    call.datagramIn? = none := by
  unfold datagramIn?
  split
  · cases h
  · rfl

theorem Call.datagramOut?_of_uncounted {call : Call} (h : call.uncounted = true) :
    call.datagramOut? = none := by
  unfold datagramOut?
  split
  · cases h
  · rfl

namespace Coordinator

/-- An answer on its way: the datagram that carries it, with its target. -/
def asDatagram (answer : Message × SocketAddr) : SocketAddr × Bytes :=
  (answer.2, answer.1.frame)

/-- What is owed for the datagrams received in a trace, in order. -/
def answersOwed (calls : List Call) : List (Message × SocketAddr) :=
  (datagramsIn calls).filterMap answerOwed

theorem answersOwed_append (calls more : List Call) :
    answersOwed (calls ++ more) = answersOwed calls ++ answersOwed more := by
  rw [answersOwed, datagramsIn_append, List.filterMap_append]
  rfl

/-- What became of datagrams between two states of a coordinator: some answers are gone from
the front of its queue, those that were owed have come to the end of it, and the datagrams
sent are those that are gone. -/
def Dealt (c c' : Coordinator) : Prop :=
  ∃ new gone, c'.host.calls = c.host.calls ++ new ∧
    c.outbox ++ answersOwed new = gone ++ c'.outbox ∧
      datagramsOut new = gone.map asDatagram ∧
        c'.counters.stunResponses = c.counters.stunResponses + UInt64.ofNat gone.length

variable {a b c c' : Coordinator} {handle : Handle} {member : Member} {host : Host}

namespace Dealt

theorem trans (hab : Dealt a b) (hbc : Dealt b c) : Dealt a c := by
  obtain ⟨new, gone, hcalls, hqueue, hsent, hcount⟩ := hab
  obtain ⟨more, further, hcalls', hqueue', hsent', hcount'⟩ := hbc
  refine ⟨new ++ more, gone ++ further, ?_, ?_, ?_, ?_⟩
  · rw [hcalls', hcalls, List.append_assoc]
  · rw [answersOwed_append, ← List.append_assoc, hqueue, List.append_assoc, hqueue',
      List.append_assoc]
  · rw [datagramsOut_append, hsent, hsent', List.map_append]
  · rw [hcount', hcount, List.length_append, UInt64.ofNat_add, UInt64.add_assoc]

/-- A stage that has nothing to do with datagrams. -/
theorem of_new {new : List Call} (hcalls : c'.host.calls = c.host.calls ++ new)
    (hin : datagramsIn new = []) (hout : datagramsOut new = [])
    (houtbox : c'.tally.outbox = c.tally.outbox)
    (hcount : c'.tally.stunResponses = c.tally.stunResponses) : Dealt c c' := by
  have hqueue : c'.outbox = c.outbox := houtbox
  have hresponses : c'.counters.stunResponses = c.counters.stunResponses := hcount
  exact ⟨new, [], hcalls, by simp [answersOwed, hin, hqueue], hout, by simp [hresponses]⟩

theorem of_added {kind : Call → Bool} (hcalls : Added kind c.host c'.host)
    (hin : ∀ call, kind call = true → call.datagramIn? = none)
    (hout : ∀ call, kind call = true → call.datagramOut? = none)
    (houtbox : c'.tally.outbox = c.tally.outbox)
    (hcount : c'.tally.stunResponses = c.tally.stunResponses) : Dealt c c' := by
  obtain ⟨new, hnew, hall⟩ := hcalls
  exact .of_new hnew (List.filterMap_eq_nil_iff.2 fun call hcall => hin call (hall call hcall))
    (List.filterMap_eq_nil_iff.2 fun call hcall => hout call (hall call hcall)) houtbox hcount

theorem of_plain (h : Plain c c') : Dealt c c' :=
  .of_added h.calls (fun _ => Call.datagramIn?_of_uncounted)
    (fun _ => Call.datagramOut?_of_uncounted) (by rw [h.tally]) (by rw [h.tally])

end Dealt

/-! ### The loop -/

theorem dealt_dismiss (c : Coordinator) (handle : Handle) (departure : Departure) :
    Dealt c (c.dismiss handle departure) := by
  cases hget : c.roster.get? handle with
  | none =>
      rw [dismiss_of_absent hget]
      exact .of_plain (.refl c)
  | some member =>
      obtain ⟨htally, failure, hcalls⟩ := dismiss_tally hget departure
      exact .of_new hcalls rfl rfl (by rw [htally]) (by rw [htally])

theorem dealt_refilled (c : Coordinator) (handle : Handle) (member : Member) :
    Dealt c (c.refilled handle member) := by
  have htally := c.refilled_tally handle member
  refine .of_added (c.added_refilled handle member) (fun call hreads => ?_)
    (fun call hreads => ?_) (by rw [htally]) (by rw [htally])
  all_goals cases call <;> first | rfl | cases hreads

theorem dealt_acceptOne (hwf : c.roster.WellFormed) (now : Instant) :
    Dealt c (c.acceptOne now).state := by
  rcases acceptOne_tally hwf now with
    hplain | ⟨id, token, ⟨kind, htally, hcalls⟩ | ⟨htally, hcalls⟩⟩
  · exact .of_plain hplain
  · exact .of_new hcalls rfl rfl (by rw [htally]) (by rw [htally])
  · exact .of_new hcalls rfl rfl (by rw [htally]) (by rw [htally])

/-- What is owed for a datagram joins the queue. -/
theorem dealt_receivePacket (c : Coordinator) : Dealt c c.receivePacket.state := by
  obtain ⟨⟨new, hnew, hall⟩, got, hgot, htally⟩ := c.receivePacket_tally
  rw [hnew, datagramsIn_append, List.append_cancel_left_eq] at hgot
  have hout : datagramsOut new = [] := List.filterMap_eq_nil_iff.2 fun call hcall => by
    have hreceives := hall call hcall
    cases call <;> first | rfl | cases hreceives
  have houtbox : c.receivePacket.state.outbox = c.outbox ++ got.filterMap answerOwed :=
    congrArg Tally.outbox htally
  have hcount : c.receivePacket.state.counters.stunResponses = c.counters.stunResponses :=
    congrArg Tally.stunResponses htally
  refine ⟨new, [], hnew, ?_, hout, by simp [hcount]⟩
  rw [answersOwed, hgot, houtbox]
  rfl

/-- What is sent leaves the queue, and was an answer. -/
theorem dealt_sendPacket (h : Consistent c) : Dealt c c.sendPacket.state := by
  obtain ⟨⟨new, hnew, hall⟩, hsent⟩ := c.sendPacket_tally
  have hin : datagramsIn new = [] := List.filterMap_eq_nil_iff.2 fun call hcall => by
    have hsends := hall call hcall
    cases call <;> first | rfl | cases hsends
  rcases hsent with ⟨hout, htally⟩ | ⟨msg, target, rest, hbox, hout, htally⟩
  · rw [hnew, datagramsOut_append, List.append_right_eq_self] at hout
    exact .of_new hnew hin hout (by rw [htally]) (by rw [htally])
  · rw [hnew, datagramsOut_append, List.append_cancel_left_eq] at hout
    obtain ⟨view, rfl⟩ := h.answers (msg, target) (hbox ▸ List.mem_cons_self)
    have houtbox : c.sendPacket.state.outbox = rest := congrArg Tally.outbox htally
    have hcount : c.sendPacket.state.counters.stunResponses = c.counters.stunResponses + 1 :=
      congrArg Tally.stunResponses htally
    refine ⟨new, [(.stunResponse view, target)], hnew, ?_, hout, hcount⟩
    rw [answersOwed, hin, hbox, houtbox]
    simp

theorem dealt_actOnControl (hwf : c.roster.WellFormed) (handle : Handle) (msg : Message) :
    Dealt c (c.actOnControl handle msg) := by
  have htally := actOnControl_tally hwf handle msg
  have hcalls : (c.actOnControl handle msg).host.calls = c.host.calls ++ [] := by simp
  exact .of_new hcalls rfl rfl (by rw [htally]) (by rw [htally])

/-- Whatever the loop does, datagrams are dealt with in order. -/
theorem followed_dealt : Followed Dealt where
  trans := .trans
  plain := .of_plain
  accept := fun now h => dealt_acceptOne h.roster now
  dismiss := fun {c} handle departure _ => dealt_dismiss c handle departure
  refill := dealt_refilled
  receive := dealt_receivePacket
  send := dealt_sendPacket

theorem Work.dealt {done : List Dispatch} (h : Work a done c) (ha : Consistent a) : Dealt a c :=
  h.follows followed_dealt (fun handle msg hc => dealt_actOnControl hc.roster handle msg) ha

/-! ### Whole runs -/

/-- The datagrams sent since the start, and after them those that wait, are the answers owed
for those received, and what has been sent is counted. -/
def Answered (start : Host) (c : Coordinator) : Prop :=
  ∃ calls, c.host.calls = start.calls ++ calls ∧
    datagramsOut calls ++ c.outbox.map asDatagram = (answersOwed calls).map asDatagram ∧
      c.outbox = (answersOwed calls).drop (datagramsOut calls).length ∧
        c.counters.stunResponses = UInt64.ofNat (datagramsOut calls).length

theorem Dealt.answered {config : CoordinatorConfig} (hstart : Coordinator.start config host = .ok a)
    (h : Dealt a c) : Answered host c := by
  obtain ⟨new, gone, hcalls, hqueue, hsent, hcount⟩ := h
  have htally := tally_start hstart
  have houtbox : a.outbox = [] := congrArg Tally.outbox htally
  have hzero : a.counters.stunResponses = 0 := congrArg Tally.stunResponses htally
  rw [houtbox, List.nil_append] at hqueue
  rw [hzero, UInt64.zero_add] at hcount
  have hlength : (datagramsOut new).length = gone.length := by rw [hsent, List.length_map]
  -- Opening the sockets neither receives nor sends.
  refine ⟨[.bindTcp config.controlAddr, .register .listener tokenOfListener .read none,
    .bindUdp config.stunAddr, .register .packetSocket tokenOfPackets .read none] ++ new, ?_, ?_,
    ?_, ?_⟩
  · rw [hcalls, (start_ok hstart).2.2.2, List.append_assoc]
  · change datagramsOut new ++ _ = (answersOwed new).map asDatagram
    rw [hsent, hqueue, List.map_append]
  · change c.outbox = (answersOwed new).drop (datagramsOut new).length
    rw [hqueue, hlength, List.drop_left]
  · change _ = UInt64.ofNat (datagramsOut new).length
    rw [hlength, hcount]

/-- **Address requests are answered in order**, and an answer is queued until it is sent. -/
theorem answers_in_order {config : CoordinatorConfig} {done : List Dispatch}
    (h : Worked config host c done) :
    Answered host c ∧ ∀ turn, Answered host (c.iterate turn).state := by
  obtain ⟨first, hstart, hwork⟩ := h.exists_work
  have hfirst := consistent_start hstart
  exact ⟨(hwork.dealt hfirst).answered hstart, fun turn =>
    ((hwork.trans (work_iterate c turn)).dealt hfirst).answered hstart⟩

/-- The packet socket can be read and written. A peer asks for its address in between, but
first a signal comes, and later the socket is full. -/
def requestTurn : Turn :=
  { Observed.quietTurn with
    supply := ⟨[], [], [.fail .interrupted, .datagram (.v4 ⟨.ofOctets 192 0 2 9, 5000⟩)
      Message.stunRequest.frame], [.fail .wouldBlock], [], [], []⟩
    events := [⟨tokenOfPackets, ⟨true, true, false, false, false⟩⟩] }

/-- A datagram comes that is no frame. -/
def strayTurn : Turn :=
  { Observed.quietTurn with
    supply := ⟨[], [], [.datagram (.v4 ⟨.ofOctets 192 0 2 1, 7⟩) [1, 2, 3]], [], [], [], []⟩ }

/-- Another peer asks for its address, and there is room for one datagram. -/
def nextRequestTurn : Turn :=
  { requestTurn with
    supply := ⟨[], [], [.datagram (.v4 ⟨.ofOctets 198 51 100 4, 6000⟩)
      Message.stunRequest.frame], [.fail .interrupted], [], [], []⟩ }

/-- Two peers ask for their addresses, with garbage in between: the first has its answer, and
that of the second waits. -/
theorem second_answer_waits :
    ∃ c done, Worked .default .idle c done ∧ Answered .idle c ∧
      datagramsOut c.host.calls =
          [(.v4 ⟨.ofOctets 192 0 2 9, 5000⟩,
            (Message.stunResponse ⟨.ofOctets 192 0 2 9, 5000⟩).frame)] ∧
        c.outbox = [(.stunResponse ⟨.ofOctets 198 51 100 4, 6000⟩,
          .v4 ⟨.ofOctets 198 51 100 4, 6000⟩)] ∧
          c.counters.stunResponses = 1 := by
  have hstart := @Worked.start .default .idle _ rfl
  have hrun := ((hstart.iterate requestTurn (by decide +kernel)).iterate strayTurn
    (by decide +kernel)).iterate nextRequestTurn (by decide +kernel)
  exact ⟨_, _, hrun, (answers_in_order hrun).1, by decide +kernel, by decide +kernel,
    by decide +kernel⟩

end Coordinator
end Rendezvous
