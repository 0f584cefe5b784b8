import Rendezvous.Proofs.Channel.Output
import Rendezvous.Proofs.Peer.Ledger
import Rendezvous.Proofs.Peer.WakeUp

/-!
# Rendezvous.Proofs.Peer.Balance

**The books of a client balance.** What the control connection has carried, and the
frames of the messages that the session still has queued for it, are together the frames of
all messages that the session ever queued, in order. A write that fails upsets this, and
stops the loop.

* `Queued` and `Still` are what most stages do, and `Moved` is what a write does.
* `Balances` says of a stage that the books balance after it unless it fails, and
  `Balances.andThen` puts stages together.
* `Run.balanced` is what follows for a run.
-/

namespace Rendezvous
namespace Client

/-! ### What a stage does to the output -/

/-- Between two states of a client messages were queued for the control connection, and
nothing else happened to what goes out over it. -/
structure Queued (mail : List Message) (c c' : Client) : Prop where
  stream : c'.control.id = c.control.id
  inFlight : c'.control.inFlight = c.control.inFlight
  queue : c'.session.controlQueue = c.session.controlQueue ++ mail
  accepted : SameAccepted c.host c'.host

/-- Between two states of a client nothing happened to what goes out over the control
connection. -/
abbrev Still (c c' : Client) : Prop := Queued [] c c'

/-- A stage that carries the output of the control connection on, unless it fails. A
message leaves the queue only while nothing is in flight. -/
structure Moved (failed : Prop) (c c' : Client) : Prop where
  carried : ¬ failed → c'.control.carried c'.host ++ frames c'.session.controlQueue =
    c.control.carried c.host ++ frames c.session.controlQueue
  whole : c'.session.controlQueue.length < c.session.controlQueue.length →
    c.control.inFlight = []

variable {c : Client}

theorem Still.refl (c : Client) : Still c c := ⟨rfl, rfl, by simp, .refl _⟩

theorem Still.trans {a b c : Client} (hab : Still a b) (hbc : Still b c) : Still a c where
  stream := hbc.stream.trans hab.stream
  inFlight := hbc.inFlight.trans hab.inFlight
  queue := by rw [hbc.queue, hab.queue, List.append_nil]
  accepted := hab.accepted.trans hbc.accepted

/-- What is done one by one leaves output alone if each piece does. -/
theorem Still.foldl {α : Type} {step : Client → α → Client} (hstep : ∀ c x, Still c (step c x))
    (c : Client) (xs : List α) : Still c (xs.foldl step c) := by
  induction xs generalizing c with
  | nil => exact .refl c
  | cons x xs ih => exact (hstep c x).trans (ih _)

theorem queued_prepare (c : Client) (turn : Turn) :
    Queued (c.session.tickMail (c.host.supply turn.supply).clock) c
      (({ c with host := c.host.supply turn.supply } : Client).withSession
        (c.session.tick (c.host.supply turn.supply).clock)) :=
  ⟨rfl, rfl, c.session.controlQueue_tick _, .of_calls_eq (c.host.calls_supply turn.supply)⟩

theorem still_watchControl (c : Client) : Still c c.watchControl.state := by
  unfold watchControl
  simp only
  split
  next => exact .refl c
  next =>
    split
    next heq => exact { Still.refl c with accepted := sameAccepted_reregister heq }
    next heq => exact { Still.refl c with accepted := sameAccepted_reregister heq }

theorem still_watchPackets (c : Client) : Still c c.watchPackets.state := by
  unfold watchPackets
  simp only
  split
  next => exact .refl c
  next =>
    split
    next heq => exact { Still.refl c with accepted := sameAccepted_reregister heq }
    next heq => exact { Still.refl c with accepted := sameAccepted_reregister heq }

theorem still_watchSources (c : Client) : Still c c.watchSources.state :=
  Stage.andThen_induction (motive := Still c) (still_watchControl c)
    fun _ hwatched => hwatched.trans (still_watchPackets _)

theorem still_poll (c : Client) (timeout : Duration) (turn : Turn) :
    Still c { c with host := (c.host.poll timeout turn).2 } :=
  { Still.refl c with accepted := sameAccepted_poll c.host timeout turn }

theorem still_latch (c : Client) (event : Event) : Still c (c.latch event) := by
  unfold latch
  split
  · exact { Still.refl c with accepted := .refl _ }
  · split
    · exact { Still.refl c with accepted := .refl _ }
    · exact { Still.refl c with accepted := .of_calls_eq rfl }

theorem still_ensureConnected (c : Client) : Still c c.ensureConnected.state := by
  obtain ⟨hcalls, hcontrol, -, -, -, hsession⟩ := ensureConnected_frame c
  exact ⟨by rw [hcontrol], by rw [hcontrol], by rw [hsession, List.append_nil],
    .of_calls_eq hcalls⟩

theorem still_actOnDecoded (c : Client) : Still c c.actOnDecoded := by
  have hreceive : ∀ (c : Client) (msg : Message),
      Still c ((c.note .debug s!"Received {msg} from coordinator").withSession
        (c.session.onControl msg)) := fun c msg =>
    ⟨rfl, rfl, (c.session.controlQueue_onControl msg).trans (List.append_nil _).symm,
      .of_calls_eq rfl⟩
  have hclear : Still c { c with decoded := [] } := { Still.refl c with accepted := .refl _ }
  exact hclear.trans (Still.foldl hreceive _ c.decoded)

/-- What comes in over the control connection leaves its output alone. -/
theorem still_readControl (c : Client) : Still c c.readControl.state := by
  have hskipped : ∀ (c : Client) (skipped : Nat), Still c (c.noteSkipped skipped) := by
    intro c skipped
    unfold noteSkipped
    split
    · exact .refl c
    · exact { Still.refl c with accepted := .of_calls_eq rfl }
  have hread : Still c { c with
      host := (c.control.receive c.host).host
      control := (c.control.receive c.host).stream
      decoded := c.decoded ++ (c.control.receive c.host).frames } :=
    ⟨c.control.id_receive c.host, c.control.inFlight_receive c.host, by simp,
      sameAccepted_receive c.control c.host⟩
  unfold readControl
  simp only
  split
  · exact hread
  · refine Still.trans ?_ ((hskipped _ _).trans (still_actOnDecoded _))
    exact { hread with accepted := hread.accepted }
  · refine Still.trans ?_ ((hskipped _ _).trans (still_actOnDecoded _))
    exact { hread with accepted := hread.accepted.trans (.of_calls_eq rfl) }

theorem queued_receivePacket (c : Client) (now : Instant) :
    Queued c.packetMail c (c.receivePacket now).state := by
  have hrecv := sameAccepted_recvDatagram c.host
  unfold receivePacket packetMail
  split
  next => exact Still.refl c
  next =>
    rcases hresult : recvDatagram c.host with ⟨result, host⟩
    rw [hresult] at hrecv
    cases result with
    | error e => exact { Still.refl c with accepted := hrecv }
    | ok datagram =>
        cases datagram with
        | message msg sender =>
            exact ⟨rfl, rfl, c.session.controlQueue_onPacket msg sender now,
              hrecv.trans (.of_calls_eq rfl)⟩
        | _ => exact { Still.refl c with accepted := hrecv }

theorem still_sendPacket (c : Client) : Still c c.sendPacket.state := by
  unfold sendPacket
  split
  next => exact .refl c
  next =>
    split
    next => exact { Still.refl c with accepted := .refl _ }
    next msg target _ _ =>
      have hsend := sameAccepted_sendDatagram msg target c.scratch c.host
      split
      next heq => rw [heq] at hsend; exact { Still.refl c with accepted := hsend }
      next heq =>
        rw [heq] at hsend
        exact { Still.refl c with accepted := hsend.trans (.of_calls_eq rfl) }
      next heq => rw [heq] at hsend; exact { Still.refl c with accepted := hsend }

/-- Time passes, and scratch memory is freed. -/
theorem still_elapse_releaseTo (c : Client) (lag : Duration) (level : Nat) :
    Still c { c.elapse lag with scratch := (c.elapse lag).scratch.releaseTo level } :=
  { Still.refl c with accepted := .of_calls_eq rfl }

theorem Still.moved {c c' : Client} (h : Still c c') (failed : Prop) : Moved failed c c' := by
  have hqueue : c'.session.controlQueue = c.session.controlQueue := by
    rw [h.queue, List.append_nil]
  refine ⟨fun _ => ?_, fun hshort => ?_⟩
  · rw [FramedStream.carried_congr h.stream h.inFlight (h.accepted _), hqueue]
  · rw [hqueue] at hshort
    exact absurd hshort (Nat.lt_irrefl _)

/-- Settling a write, for which the queue may have been shortened. -/
theorem moved_settleWrite {c c' : Client} {written : FramedStream.Written}
    (hcarried : ∀ outcome, written.result = .ok outcome →
      written.stream.carried written.host ++ frames c'.session.controlQueue =
        c.control.carried c.host ++ frames c.session.controlQueue)
    (hwhole : c'.session.controlQueue.length < c.session.controlQueue.length →
      c.control.inFlight = []) :
    Moved ((c'.settleWrite written).failure ≠ none) c (c'.settleWrite written).state := by
  unfold settleWrite
  simp only
  split
  next => exact ⟨fun hgoing => absurd nofun hgoing, hwhole⟩
  next hresult => exact ⟨fun _ => hcarried _ hresult, hwhole⟩
  next hresult => exact ⟨fun _ => hcarried _ hresult, hwhole⟩

theorem moved_writeControl (c : Client) :
    Moved (c.writeControl.failure ≠ none) c c.writeControl.state := by
  unfold writeControl
  by_cases hflight : c.control.hasInFlight = true
  · rw [if_pos hflight]
    exact moved_settleWrite (fun _ hresult => by rw [FramedStream.carried_resume hresult])
      (fun hshort => absurd hshort (Nat.lt_irrefl _))
  · rw [if_neg hflight]
    have hidle : c.control.inFlight = [] := by simpa [FramedStream.hasInFlight] using hflight
    cases hqueue : c.session.controlQueue with
    | nil =>
        simp only [Session.takeControl, hqueue, List.head?_nil]
        have hcleared : Still c { c with controlLatch := c.controlLatch.withoutWrite } :=
          { Still.refl c with accepted := .refl _ }
        exact hcleared.moved _
    | cons msg rest =>
        simp only [Session.takeControl, hqueue, List.head?_cons, List.tail_cons]
        refine moved_settleWrite (fun _ hresult => ?_) fun _ => hidle
        have hsent := FramedStream.carried_transmit hidle hresult
        refine (congrArg (· ++ frames rest) hsent).trans ?_
        rw [hqueue, frames_cons, List.append_assoc]
        rfl

/-! ### One stage -/

namespace Ledger

/-- The books balance, unless something has failed. -/
structure BalancedUnless (failed : Prop) (l : Ledger) : Prop where
  bytes : ¬ failed → l.client.control.carried l.client.host ++
    frames l.client.session.controlQueue = frames l.enqueued
  encodes : ∀ {msg}, msg ∈ l.enqueued → ∃ frame, msg.encode = .ok frame
  whole : ∀ {tail}, tail ∈ l.tails → tail = []

/-- The books balance. -/
abbrev Balanced (l : Ledger) : Prop := BalancedUnless False l

/-- After a stage the books balance, unless it fails. -/
def Balances (stage : Stage Ledger) : Prop :=
  stage.state.BalancedUnless (stage.failure ≠ none)

variable {l : Ledger} {c : Client} {failed : Prop}

theorem BalancedUnless.weaken (h : l.BalancedUnless failed) {failed' : Prop}
    (himp : failed → failed') : l.BalancedUnless failed' :=
  { h with bytes := fun hgoing => h.bytes (hgoing ∘ himp) }

theorem Balanced.balances (h : l.Balanced) {failure : Option LoopFailure} :
    Balances ⟨l, failure⟩ :=
  h.weaken False.elim

/-- One stage after another: the second has balanced books to start from. -/
theorem Balances.andThen {stage : Stage Ledger} {next : Ledger → Stage Ledger}
    (h : Balances stage) (step : ∀ l, l.Balanced → Balances (next l)) :
    Balances (stage.andThen next) := by
  unfold Stage.andThen
  split
  next hgoing => exact step _ (h.weaken fun hfailed => hfailed hgoing)
  next => exact h

/-- Nothing is noted that is in flight, if nothing is when a message leaves the queue. -/
theorem BalancedUnless.whole_next (h : l.BalancedUnless failed)
    (hwhole : c.session.controlQueue.length < l.client.session.controlQueue.length →
      l.client.control.inFlight = [])
    {tail : Bytes} (htail : tail ∈ (l.next c).tails) : tail = [] := by
  rcases List.mem_append.1 htail with htail | htail
  · exact h.whole htail
  · unfold newTail at htail
    split at htail
    next hshort => exact (List.mem_singleton.1 htail).trans (hwhole hshort)
    next => cases htail

theorem Balanced.queued (h : l.Balanced) {mail : List Message} (hqueued : Queued mail l.client c)
    (hmail : ∀ msg ∈ mail, ∃ entry, msg = .connect entry) :
    ((l.next c).enter mail).Balanced where
  bytes := by
    intro _
    have hcarried := FramedStream.carried_congr hqueued.stream hqueued.inFlight (hqueued.accepted _)
    have hbytes := h.bytes not_false
    rw [client_enter, client_next, hcarried, hqueued.queue, frames_append, ← List.append_assoc,
      hbytes, ← frames_append]
    rfl
  encodes := by
    intro msg hmsg
    rcases List.mem_append.1 hmsg with hmsg | hmsg
    · exact h.encodes hmsg
    · obtain ⟨entry, rfl⟩ := hmail msg hmsg
      obtain ⟨frame, hframe, -⟩ := @Message.encode_of_fits_capacity (.connect entry) rfl
        (Nat.le_of_ble_eq_true rfl)
      exact ⟨frame, hframe⟩
  whole := h.whole_next fun hshort => by
    rw [hqueued.queue, List.length_append] at hshort
    omega

theorem enter_nil (l : Ledger) : l.enter [] = l := by
  simp [enter]

theorem Balanced.still (h : l.Balanced) (hstill : Still l.client c) : (l.next c).Balanced := by
  have hnext := h.queued hstill nofun
  rwa [enter_nil] at hnext

theorem Balanced.moved (h : l.Balanced) (hmoved : Moved failed l.client c) :
    (l.next c).BalancedUnless failed where
  bytes := fun hgoing => (hmoved.carried hgoing).trans (h.bytes not_false)
  encodes := h.encodes
  whole := h.whole_next hmoved.whole

/-! ### One iteration -/

theorem Balanced.watch (h : l.Balanced) (turn : Turn) : Balances (l.watch turn) := by
  have hticked := h.queued (queued_prepare l.client turn) fun _ => Session.mem_tickMail
  exact Balanced.balances (hticked.still (still_watchSources _))

theorem Balanced.exchangeControl (h : l.Balanced) : Balances l.exchangeControl := by
  refine Balances.andThen ?_ fun l' h' => ?_
  · split
    · exact Balanced.balances (h.still (still_readControl l.client))
    · exact h.balances
  · split
    · exact h'.moved (moved_writeControl l'.client)
    · exact h'.balances

theorem Balanced.serveControl (h : l.Balanced) : Balances l.serveControl := by
  refine Balances.andThen (Balanced.balances (h.still (still_ensureConnected l.client))) ?_
  intro l' h'
  split
  · exact h'.exchangeControl
  · exact h'.balances

theorem exists_connect_of_mem_packetMail {msg : Message} (h : msg ∈ c.packetMail) :
    ∃ entry, msg = .connect entry := by
  unfold packetMail at h
  split at h
  · cases h
  · split at h
    · exact Session.mem_packetMail h
    · cases h

theorem Balanced.servePackets (h : l.Balanced) (now : Instant) :
    Balances (l.servePackets now) := by
  refine Balances.andThen (Balanced.balances ?_) fun l' h' => ?_
  · exact h.queued (queued_receivePacket l.client now) fun _ => exists_connect_of_mem_packetMail
  · exact Balanced.balances (h'.still (still_sendPacket l'.client))

theorem Balanced.serve (h : l.Balanced) (lag : Duration) : Balances (l.serve lag) := by
  refine h.serveControl.andThen fun l' h' => ?_
  refine (h'.servePackets _).andThen fun l'' h'' => ?_
  exact Balanced.balances (h''.still (still_elapse_releaseTo l''.client lag _))

theorem Balanced.pollAndServe (h : l.Balanced) (turn : Turn) : Balances (l.pollAndServe turn) := by
  have hpoll := still_poll l.client (l.client.waitTime l.client.host.clock) turn
  unfold Ledger.pollAndServe
  split
  next heq => rw [heq] at hpoll; exact (h.still hpoll).balances
  next heq => rw [heq] at hpoll; exact (h.still hpoll).balances
  next events host heq =>
    rw [heq] at hpoll
    exact Balanced.serve (h.still (hpoll.trans (Still.foldl still_latch _ events))) turn.lag

/-- An iteration keeps the books balanced unless it fails, and even then no message is
begun while another is in flight. -/
theorem Balanced.iterate (h : l.Balanced) (turn : Turn) : Balances (l.iterate turn) :=
  (h.watch turn).andThen fun _ h' => h'.pollAndServe turn

/-! ### The whole loop -/

theorem balanced_first {config : PeerConfig} {near : NearEnds} {host : Host}
    (hunwritten : host.Unwritten) (h : Client.start config near host = .ok c) :
    (first c).Balanced := by
  obtain ⟨-, -, hcontrol, hqueue, hcalls⟩ := start_ok h
  refine ⟨fun _ => ?_, nofun, nofun⟩
  -- The stream that was dialled did not exist before, and nobody has written to it since.
  have hclean : accepted ⟨host.streams.length⟩ c.host.calls = [] := by
    rw [hcalls, accepted_append, hunwritten _ (.inr (Nat.le_refl _))]
    rfl
  simp [first, FramedStream.carried, hcontrol, hqueue, FramedStream.ofStream, hclean]

/-- The books balance at the head of the loop. -/
theorem Run.balanced {config : PeerConfig} {near : NearEnds} {host : Host}
    (hunwritten : host.Unwritten) (h : Run config near host l) : l.Balanced := by
  induction h with
  | start h => exact balanced_first hunwritten h
  | iterate turn _ hgoing ih => exact (ih.iterate turn).weaken fun hfailed => hfailed hgoing

end Ledger
end Client
end Rendezvous
