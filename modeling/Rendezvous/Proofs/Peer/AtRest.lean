import Rendezvous.Proofs.Host.Fruitless
import Rendezvous.Proofs.Peer.Outgoing

/-!
# Rendezvous.Proofs.Peer.AtRest

**A client that gets nothing done goes to sleep.** If all operations of an iteration would
block, the client forgets all readiness, what its poll has just told of included. It forgets
that of its control connection also while that is not connected yet, since then no more than a
look at the connection clears the latches. The session's timer is set anew before the next
poll, so that this poll waits.

* `exchangeControl_of_fruitless` and `servePackets_of_fruitless` are what service does.
* `atRest_iterate` is the iteration, and `AtRest.waitTime_pos` the next poll.
-/

namespace Rendezvous

/-- After a tick there is time left. -/
theorem Session.Regular.ranOut_tick {s : Session} {pace : Pace} (h : s.Regular pace)
    (hretry : 0 < pace.retry.nanos) (hrefresh : 0 < pace.refresh.nanos) (now : Instant) :
    (s.tick now).val.timer.ranOut now = false := by
  have harmed {limit : Duration} (hlimit : 0 < limit.nanos) :
      (Timer.mk now (some limit)).ranOut now = false := by
    rw [Bool.eq_false_iff, Ne, Timer.ranOut_iff]
    rintro ⟨_, ⟨⟩, hpassed⟩
    simp at hpassed
    omega
  rw [val_tick h.settled.phase_ne]
  split
  · split
    · exact harmed (h.pace_eq ▸ hrefresh)
    · exact harmed (h.pace_eq ▸ hretry)
  next hleft => exact Bool.eq_false_iff.2 hleft

namespace Client

variable {c c' : Client} {pace : Pace} {turn : Turn}

/-! ### The control connection in vain -/

theorem controlLatch_actOnDecoded (c : Client) :
    c.actOnDecoded.controlLatch = c.controlLatch :=
  List.foldlRecOn (motive := fun b : Client => b.controlLatch = c.controlLatch) _ _ rfl
    fun _ hbefore _ _ => hbefore

theorem calls_actOnDecoded (c : Client) : c.actOnDecoded.host.calls = c.host.calls :=
  List.foldlRecOn (motive := fun b : Client => b.host.calls = c.host.calls) _ _ rfl
    fun _ hbefore _ _ => hbefore

theorem calls_readControl (c : Client) :
    c.readControl.state.host.calls = (c.control.receive c.host).host.calls := by
  have hskipped (b : Client) (skipped : Nat) :
      (b.noteSkipped skipped).host.calls = b.host.calls := by
    unfold noteSkipped
    split <;> rfl
  unfold readControl
  simp only
  split
  · rfl
  · rw [Stage.state_going, calls_actOnDecoded, hskipped]
  · rw [Stage.state_going, calls_actOnDecoded, hskipped]
    rfl

theorem readControl_of_fruitless (h : Added Call.fruitless c.host c.readControl.state.host) :
    c.readControl.failure = none ∧
      c.readControl.state.controlLatch = c.controlLatch.withoutRead := by
  have hreceive := FramedStream.receive_of_fruitless
    (h.trans (.of_calls_eq (calls_readControl c).symm))
  unfold readControl
  rw [hreceive]
  refine ⟨rfl, ?_⟩
  simp only [Nat.sub_self, noteSkipped, if_true, Stage.state_going, controlLatch_actOnDecoded]

theorem settleWrite_of_waiting {written : FramedStream.Written}
    (h : written.result = .ok .waiting) :
    (c.settleWrite written).failure = none ∧
      (c.settleWrite written).state.controlLatch = c.controlLatch.withoutWrite := by
  unfold settleWrite
  rw [h]
  exact ⟨rfl, rfl⟩

theorem host_settleWrite (c : Client) (written : FramedStream.Written) :
    (c.settleWrite written).state.host = written.host := by
  unfold settleWrite
  simp only
  split <;> rfl

theorem writeControl_of_fruitless (hregular : c.session.Regular pace)
    (h : Added Call.fruitless c.host c.writeControl.state.host) :
    c.writeControl.failure = none ∧
      c.writeControl.state.controlLatch = c.controlLatch.withoutWrite := by
  unfold writeControl at h ⊢
  split at h
  next hflight =>
    rw [if_pos hflight]
    exact settleWrite_of_waiting (FramedStream.resume_of_fruitless hflight
      (h.trans (.of_calls_eq (by rw [host_settleWrite]))))
  next hflight =>
    rw [if_neg hflight]
    cases hqueue : c.session.controlQueue with
    | nil =>
        rw [Session.takeControl, hqueue]
        exact ⟨rfl, rfl⟩
    | cons msg rest =>
        simp only [Session.takeControl, hqueue, List.head?_cons, List.tail_cons] at h ⊢
        obtain ⟨frame, hframe⟩ := hregular.encode_control (hqueue ▸ List.mem_cons_self)
        refine settleWrite_of_waiting (FramedStream.transmit_of_fruitless hframe ?_)
        rw [host_settleWrite] at h
        exact h

theorem calls_writeControl (c : Client) : c.host.calls <+: c.writeControl.state.host.calls := by
  have hresume := c.control.exchange_resume c.host
  unfold writeControl
  split
  · rw [host_settleWrite]
    obtain ⟨new, hcalls, -⟩ := hresume
    exact hcalls ▸ List.prefix_append ..
  · split
    · exact List.prefix_rfl
    next msg session _ =>
      rw [host_settleWrite]
      obtain ⟨new, hcalls, -⟩ := c.control.exchange_transmit msg c.scratch
        (({ c with session := session } : Client).note .debug s!"Sending {msg} to coordinator").host
      exact ⟨new, hcalls.symm⟩

theorem calls_reading (c : Client) : c.host.calls <+: c.reading.state.host.calls := by
  obtain ⟨new, hcalls, -⟩ := c.control.exchange_receive c.host
  unfold reading
  split
  · exact calls_readControl c ▸ hcalls ▸ List.prefix_append ..
  · exact List.prefix_rfl

theorem calls_writing (c : Client) : c.host.calls <+: c.writing.state.host.calls := by
  unfold writing
  split
  · exact calls_writeControl c
  · exact List.prefix_rfl

theorem reading_of_fruitless (h : Added Call.fruitless c.host c.reading.state.host) :
    c.reading.failure = none ∧ c.reading.state.controlLatch = c.controlLatch.withoutRead := by
  unfold reading at h ⊢
  split at h
  next hset =>
    rw [if_pos hset]
    exact readControl_of_fruitless h
  next hset =>
    rw [if_neg hset]
    exact ⟨rfl, (Latch.withoutRead_of_not_readable hset).symm⟩

theorem writing_of_fruitless (hregular : c.session.Regular pace)
    (h : Added Call.fruitless c.host c.writing.state.host) :
    c.writing.failure = none ∧ c.writing.state.controlLatch = c.controlLatch.withoutWrite := by
  unfold writing at h ⊢
  split at h
  next hset =>
    rw [if_pos hset]
    exact writeControl_of_fruitless hregular h
  next hset =>
    rw [if_neg hset]
    exact ⟨rfl, (Latch.withoutWrite_of_not_writable hset).symm⟩

/-- Reading and writing in vain clears both latches. -/
theorem exchangeControl_of_fruitless (hregular : c.session.Regular pace)
    (h : Added Call.fruitless c.host c.exchangeControl.state.host) :
    c.exchangeControl.failure = none ∧ c.exchangeControl.state.controlLatch = .clear := by
  obtain ⟨hread, hrest⟩ := Stage.added_of_andThen host (calls_reading c) calls_writing h
  obtain ⟨hgoing, hlatch⟩ := reading_of_fruitless hread
  obtain ⟨hwritten, hcleared⟩ :=
    writing_of_fruitless ((changed_reading c).regular hregular) (hrest hgoing)
  rw [exchangeControl_eq, Stage.andThen, hgoing]
  exact ⟨hwritten, hcleared.trans (by rw [hlatch]; rfl)⟩

/-- A connection that is not connected, or not looked at for want of readiness, has no latch
set. -/
theorem ensureConnected_latch (h : c.ensureConnected.failure = none) :
    c.ensureConnected.state.connected = true ∨
      c.ensureConnected.state.controlLatch = .clear := by
  unfold ensureConnected at h ⊢
  split
  next hskip =>
    rcases Bool.or_eq_true_iff.1 hskip with hconnected | hunset
    · exact .inl hconnected
    · simp only [Latch.isSet, Bool.not_eq_true', Bool.or_eq_false_iff] at hunset
      exact .inr (congrArg₂ Latch.mk hunset.1 hunset.2)
  next hlook =>
    rw [if_neg hlook] at h
    unfold checkConnected at h ⊢
    split at h
    · cases h
    · split at h
      · exact .inl rfl
      · exact .inr rfl
      · cases h

theorem calls_ensureConnected (c : Client) :
    c.host.calls <+: c.ensureConnected.state.host.calls :=
  (ensureConnected_frame c).1 ▸ List.prefix_rfl

theorem calls_exchangeControl (c : Client) :
    c.host.calls <+: c.exchangeControl.state.host.calls :=
  (calls_reading c).trans (Stage.calls_andThen host calls_writing)

theorem calls_connected (c : Client) :
    c.host.calls <+: (if c.connected then c.exchangeControl else .going c).state.host.calls := by
  split
  · exact calls_exchangeControl c
  · exact List.prefix_rfl

/-- Unless the connect fails, serving the control connection in vain clears its latch. -/
theorem serveControl_of_fruitless (hregular : c.session.Regular pace)
    (hchecked : c.ensureConnected.failure = none)
    (h : Added Call.fruitless c.host c.serveControl.state.host) :
    c.serveControl.failure = none ∧ c.serveControl.state.controlLatch = .clear := by
  have hrest := (Stage.added_of_andThen host (calls_ensureConnected c) calls_connected h).2 hchecked
  have hsession := (changed_ensureConnected c).regular hregular
  have hlatch := ensureConnected_latch hchecked
  unfold serveControl
  rw [Stage.andThen, hchecked]
  simp only
  split at hrest
  next hconnected =>
    rw [if_pos hconnected]
    exact exchangeControl_of_fruitless hsession hrest
  next hconnected =>
    rw [if_neg hconnected]
    exact ⟨rfl, hlatch.resolve_left hconnected⟩

/-! ### Datagrams in vain -/

theorem receivePacket_of_fruitless {now : Instant}
    (h : Added Call.fruitless c.host (c.receivePacket now).state.host) :
    ∃ host, c.receivePacket now =
      .going { c with host := host, packetLatch := c.packetLatch.withoutRead } := by
  unfold receivePacket at h ⊢
  by_cases hset : c.packetLatch.readable = true
  · simp only [hset, Bool.not_true, Bool.false_eq_true, if_false] at h ⊢
    have hreceived : Added Call.fruitless c.host (recvDatagram c.host).2 := by
      refine h.trans (.of_calls_eq ?_)
      split <;> (next heq => rw [heq]; rfl)
    have hanswer := recvDatagram_of_fruitless hreceived
    rcases hresult : recvDatagram c.host with ⟨answer, host⟩
    rw [hresult] at hanswer
    cases hanswer
    exact ⟨host, rfl⟩
  · rw [Latch.withoutRead_of_not_readable hset]
    simp only [hset, Bool.not_false, if_true]
    exact ⟨c.host, rfl⟩

theorem sendPacket_of_fruitless (hregular : c.session.Regular pace)
    (h : Added Call.fruitless c.host c.sendPacket.state.host) :
    ∃ host scratch, c.sendPacket =
      .going { c with
        host := host, scratch := scratch, packetLatch := c.packetLatch.withoutWrite } := by
  unfold sendPacket at h ⊢
  by_cases hset : c.packetLatch.writable = true
  · simp only [hset, Bool.not_true, Bool.false_eq_true, if_false] at h ⊢
    cases hqueue : c.session.packetQueue with
    | nil => exact ⟨c.host, c.scratch, rfl⟩
    | cons item rest =>
        obtain ⟨frame, hframe, hlength⟩ := hregular.encode_packet (hqueue ▸ List.mem_cons_self)
        obtain ⟨msg, target⟩ := item
        simp only [hqueue] at h ⊢
        have hsend : Added Call.fruitless c.host (sendDatagram msg target c.scratch c.host).2.2 := by
          refine h.trans (.of_calls_eq ?_)
          split <;> (next heq => rw [heq]; rfl)
        have hanswer := sendDatagram_of_fruitless hframe hlength hsend
        rcases hresult : sendDatagram msg target c.scratch c.host with ⟨answer, scratch, host⟩
        rw [hresult] at hanswer
        cases hanswer
        exact ⟨host, scratch, rfl⟩
  · rw [Latch.withoutWrite_of_not_writable hset]
    simp only [hset, Bool.not_false, if_true]
    exact ⟨c.host, c.scratch, rfl⟩

theorem calls_receivePacket (c : Client) (now : Instant) :
    c.host.calls <+: (c.receivePacket now).state.host.calls := by
  obtain ⟨new, hcalls, -⟩ := (quiet_receivePacket c now).exchange
  exact ⟨new, hcalls.symm⟩

theorem calls_sendPacket (c : Client) : c.host.calls <+: c.sendPacket.state.host.calls := by
  have hsend (msg : Message) (target : SocketAddr) :
      c.host.calls <+: (sendDatagram msg target c.scratch c.host).2.2.calls := by
    obtain ⟨new, hcalls, -⟩ := added_sendDatagram msg target c.scratch c.host
    exact ⟨new, hcalls.symm⟩
  unfold sendPacket
  split
  · exact List.prefix_rfl
  · split
    · exact List.prefix_rfl
    next msg target _ _ =>
      have hbefore := hsend msg target
      split <;> (next heq => rw [heq] at hbefore; exact hbefore)

/-- Work on the packet socket in vain clears its latch. -/
theorem servePackets_of_fruitless (hregular : c.session.Regular pace) {now : Instant}
    (h : Added Call.fruitless c.host (c.servePackets now).state.host) :
    ∃ host scratch, c.servePackets now =
      .going { c with host := host, scratch := scratch, packetLatch := .clear } := by
  obtain ⟨hreceive, hsend⟩ := Stage.added_of_andThen host (calls_receivePacket c now) calls_sendPacket h
  obtain ⟨received, hreceived⟩ := receivePacket_of_fruitless hreceive
  rw [hreceived] at hsend
  rw [servePackets, hreceived]
  obtain ⟨sent, scratch, hsent⟩ := sendPacket_of_fruitless (c := {
    c with host := received, packetLatch := c.packetLatch.withoutRead }) hregular (hsend rfl)
  exact ⟨sent, scratch, hsent⟩

/-! ### The iteration -/

/-- The state in which the loop can wait: no latch is set. -/
structure AtRest (c : Client) : Prop where
  control : c.controlLatch = .clear
  packets : c.packetLatch = .clear

theorem calls_servePackets (c : Client) (now : Instant) :
    c.host.calls <+: (c.servePackets now).state.host.calls :=
  (calls_receivePacket c now).trans (Stage.calls_andThen host calls_sendPacket)

theorem calls_conclude (lag : Duration) (level : Nat) (c : Client) :
    c.host.calls <+: (conclude lag level c).state.host.calls :=
  (calls_servePackets c _).trans (Stage.calls_andThen host fun _ => List.prefix_rfl)

theorem calls_serveControl (c : Client) : c.host.calls <+: c.serveControl.state.host.calls :=
  (calls_ensureConnected c).trans (Stage.calls_andThen host calls_connected)

/-- Service in vain leaves the client at rest. -/
theorem atRest_serve {lag : Duration} (hregular : c.session.Regular pace)
    (hchecked : c.ensureConnected.failure = none)
    (h : Added Call.fruitless c.host (c.serve lag).state.host) :
    (c.serve lag).failure = none ∧ AtRest (c.serve lag).state := by
  obtain ⟨hcontrol, hrest⟩ := Stage.added_of_andThen host (calls_serveControl c)
    (calls_conclude lag c.scratch.level) h
  obtain ⟨hgoing, hlatch⟩ := serveControl_of_fruitless hregular hchecked hcontrol
  have hsession := (changed_serveControl c).regular hregular
  have hpackets := (Stage.added_of_andThen host (calls_servePackets c.serveControl.state _)
    (fun _ => List.prefix_rfl) (hrest hgoing)).1
  obtain ⟨host, scratch, hserved⟩ := servePackets_of_fruitless hsession hpackets
  rw [serve_eq, Stage.andThen, hgoing]
  simp only [conclude, hserved]
  exact ⟨rfl, hlatch, rfl⟩

/-- A poll that comes back has its events latched. -/
theorem exists_latched (c : Client) (hpoll : turn.pollFailure = none) :
    ∃ ready, c.latched turn = some ready := by
  simp [latched, Host.poll, hpoll]

theorem calls_latched {ready : Client} (h : c.latched turn = some ready) :
    c.host.calls <+: ready.host.calls := by
  have hpolled := Host.calls_poll c.host (c.waitTime c.host.clock) turn
  unfold latched at h
  split at h
  next => cases h
  next events host heq =>
    cases h
    rw [heq] at hpolled
    refine List.foldlRecOn (motive := fun b : Client => c.host.calls <+: b.host.calls) _ _
      (hpolled ▸ List.prefix_append ..) fun b hbefore event _ => hbefore.trans ?_
    unfold latch
    split
    · exact List.prefix_rfl
    · split <;> exact List.prefix_rfl

/-- Nothing changes of what the wait depends on, while calls may be made. -/
structure Unstirred (c c' : Client) : Prop where
  config : c'.config = c.config
  clock : c'.host.clock = c.host.clock
  control : c'.controlLatch = c.controlLatch
  packets : c'.packetLatch = c.packetLatch
  session : c'.session = c.session
  calls : c.host.calls <+: c'.host.calls

theorem Unstirred.refl (c : Client) : Unstirred c c := ⟨rfl, rfl, rfl, rfl, rfl, List.prefix_rfl⟩

theorem Unstirred.trans {b : Client} (hcb : Unstirred c b) (hbc : Unstirred b c') :
    Unstirred c c' :=
  ⟨hbc.config.trans hcb.config, hbc.clock.trans hcb.clock, hbc.control.trans hcb.control,
    hbc.packets.trans hcb.packets, hbc.session.trans hcb.session, hcb.calls.trans hbc.calls⟩

theorem unstirred_watchSources (c : Client) : Unstirred c c.watchSources.state := by
  refine Stage.andThen_induction (motive := Unstirred c) ?_ fun b hbefore => hbefore.trans ?_
  · have hcalls := Host.calls_reregister c.host (.stream c.control.id) tokenOfControl
      (.onDemand c.controlHasOutput)
    unfold watchControl
    simp only
    split
    · exact .refl c
    · split <;> next heq =>
        rw [heq] at hcalls
        exact ⟨rfl, (congrArg (fun answer => answer.2.clock) heq).symm, rfl, rfl, rfl,
          hcalls ▸ List.prefix_append ..⟩
  · have hcalls := Host.calls_reregister b.host .packetSocket tokenOfClientPackets
      (.onDemand b.packetHasOutput)
    unfold watchPackets
    simp only
    split
    · exact .refl b
    · split <;> next heq =>
        rw [heq] at hcalls
        exact ⟨rfl, (congrArg (fun answer => answer.2.clock) heq).symm, rfl, rfl, rfl,
          hcalls ▸ List.prefix_append ..⟩

/-- The client before it polls is the one whose session was ticked. -/
theorem unstirred_watched (c : Client) (turn : Turn) :
    Unstirred { c with session := (c.session.tick c.host.clock).val } (c.watched turn).state := by
  have hclock := c.host.clock_supply turn.supply
  have hcalls : (c.host.supply turn.supply).calls = c.host.calls := Host.calls_supply ..
  have hticked : Unstirred { c with session := (c.session.tick c.host.clock).val }
      (({ c with host := c.host.supply turn.supply } : Client).withSession
        (c.session.tick (c.host.supply turn.supply).clock)) :=
    ⟨rfl, hclock, rfl, rfl, by rw [hclock]; rfl, hcalls ▸ List.prefix_rfl⟩
  exact hticked.trans (unstirred_watchSources _)

/-- At rest the next poll waits: the session's timer was set anew before it. -/
theorem AtRest.waitTime_pos (h : AtRest c) (hregular : c.session.Regular pace)
    (hretry : 0 < pace.retry.nanos) (hrefresh : 0 < pace.refresh.nanos)
    (hpoll : 0 < c.config.pollTimeout.nanos) (next : Turn) :
    0 < ((c.watched next).state.waitTime (c.watched next).state.host.clock).nanos := by
  have hsame := unstirred_watched c next
  have hontime := hregular.ranOut_tick hretry hrefresh c.host.clock
  have hidle : ((c.watched next).state.controlWork || (c.watched next).state.packetWork) = false := by
    rw [controlWork, packetWork, hsame.control, hsame.packets]
    simp only [h.control, h.packets]
    rfl
  rw [waitTime, hidle]
  -- The one timer is the session's, which the tick before the poll has set anew.
  refine shortestWait_pos (hsame.config ▸ hpoll) fun left hmem hzero => ?_
  obtain rfl := List.mem_singleton.1 hmem
  rw [hsame.clock, hsame.session] at hzero
  simp only [Timer.ranOut, ← Session.timeout.eq_def, hzero] at hontime
  cases hontime

theorem calls_serve (c : Client) (lag : Duration) :
    c.host.calls <+: (c.serve lag).state.host.calls :=
  (calls_serveControl c).trans (Stage.calls_andThen host (calls_conclude lag _))

/-- The trace only grows. -/
theorem calls_iterate (c : Client) (turn : Turn) :
    c.host.calls <+: (c.iterate turn).state.host.calls := by
  rw [iterate_eq]
  refine (unstirred_watched c turn).calls.trans (Stage.calls_andThen host fun b => ?_)
  cases hready : b.latched turn with
  | none =>
      obtain ⟨failure, hpoll, -⟩ := pollAndServe_of_not_latched hready
      rw [hpoll, Host.calls_poll]
      exact List.prefix_append ..
  | some ready =>
      rw [pollAndServe_of_latched hready]
      exact (calls_latched hready).trans (calls_serve ready turn.lag)

/-- An iteration in which nothing gets done leaves the client at rest, unless its connect
fails. -/
theorem atRest_iterate (hregular : c.session.Regular pace) (hturn : turn.pollFailure = none)
    (hwatched : (c.watched turn).failure = none)
    (hchecked : ∀ {ready}, (c.watched turn).state.latched turn = some ready →
      ready.ensureConnected.failure = none)
    (h : Added Call.fruitless c.host (c.iterate turn).state.host) :
    (c.iterate turn).failure = none ∧ AtRest (c.iterate turn).state := by
  obtain ⟨ready, hready⟩ := exists_latched (c.watched turn).state hturn
  have hsession : ready.session.Regular pace :=
    ((changed_watched c turn).trans (changed_latched hready)).regular hregular
  have hcalls := (unstirred_watched c turn).calls.trans (calls_latched hready)
  rw [iterate_eq, Stage.andThen, hwatched] at h ⊢
  simp only [pollAndServe_of_latched hready] at h ⊢
  -- Whatever the poll has told of is latched by now, and service forgets all of it.
  exact atRest_serve hsession (hchecked hready) (h.split hcalls (calls_serve ready turn.lag)).2

end Client
end Rendezvous
