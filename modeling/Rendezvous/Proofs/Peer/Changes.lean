import Rendezvous.Proofs.Peer.Diary
import Rendezvous.Proofs.Peer.WakeUp

/-!
# Rendezvous.Proofs.Peer.Changes

**A client changes its session only in ways that a diary records.** Each stage of the loop
ticks it, feeds it a message or takes one off its queues, or leaves it alone (`Changed`). So
what every change keeps, every stage keeps (`Changed.keeps`), and what a new session has
besides, a session has at the head of the loop (`Reachable.session_keeps`).

`watched` and `latched` name the states in which a client polls and comes to serve its
sources.
-/

namespace Rendezvous
namespace Client

/-! ### Up to the service -/

/-- The client when it polls. -/
def watched (c : Client) (turn : Turn) : Stage Client :=
  let c := { c with host := c.host.supply turn.supply }
  (c.withSession (c.session.tick c.host.clock)).watchSources

/-- The client when a poll has been answered with events, unless it fails. -/
def latched (c : Client) (turn : Turn) : Option Client :=
  match c.host.poll (c.waitTime c.host.clock) turn with
  | (.error _, _) => none
  | (.ok events, host) => some (events.foldl latch { c with host := host })

theorem iterate_eq (c : Client) (turn : Turn) :
    c.iterate turn = (c.watched turn).andThen fun c => c.pollAndServe turn := rfl

theorem pollAndServe_of_latched {c ready : Client} {turn : Turn}
    (h : c.latched turn = some ready) : c.pollAndServe turn = ready.serve turn.lag := by
  unfold latched at h
  unfold pollAndServe
  split at h
  next => cases h
  next events host heq =>
    cases h
    rw [heq]

/-- A poll that fails ends the iteration. -/
theorem pollAndServe_of_not_latched {c : Client} {turn : Turn} (h : c.latched turn = none) :
    ∃ failure, c.pollAndServe turn =
        ⟨{ c with host := (c.host.poll (c.waitTime c.host.clock) turn).2 }, failure⟩ ∧
      ∀ e, failure ≠ some (.channel e) := by
  unfold latched at h
  unfold pollAndServe
  split at h
  next kind host heq =>
    rw [heq]
    cases kind <;> exact ⟨_, rfl, nofun⟩
  next => cases h

/-! ### The service in parts -/

/-- What comes after the control connection. -/
def conclude (lag : Duration) (level : Nat) (c : Client) : Stage Client :=
  (c.servePackets c.host.clock).andThen fun c =>
    let c := c.elapse lag
    .going { c with scratch := c.scratch.releaseTo level }

theorem serve_eq (c : Client) (lag : Duration) :
    c.serve lag = c.serveControl.andThen (conclude lag c.scratch.level) := rfl

/-- The read of an iteration, if the latch allows it. -/
def reading (c : Client) : Stage Client :=
  if c.controlLatch.readable then c.readControl else .going c

/-- The write of an iteration, if the latch allows it. -/
def writing (c : Client) : Stage Client :=
  if c.controlLatch.writable then c.writeControl else .going c

theorem exchangeControl_eq (c : Client) : c.exchangeControl = c.reading.andThen writing := rfl

/-! ### Changes of the session -/

/-- Between two states of a client its session went through some changes. -/
structure Changed (c c' : Client) : Prop where
  config : c'.config = c.config
  session : ∃ changes : List Session.Change, c'.session = changes.foldl Session.change c.session

variable {a b c c' : Client} {turn : Turn}

namespace Changed

theorem of_session_eq (hsession : c'.session = c.session) (hconfig : c'.config = c.config) :
    Changed c c' :=
  ⟨hconfig, [], hsession⟩

theorem refl (c : Client) : Changed c c := of_session_eq rfl rfl

theorem trans (hab : Changed a b) (hbc : Changed b c) : Changed a c := by
  obtain ⟨changes, hchanges⟩ := hab.session
  obtain ⟨more, hmore⟩ := hbc.session
  exact ⟨hbc.config.trans hab.config, changes ++ more, by rw [hmore, hchanges, List.foldl_append]⟩

theorem single (change : Session.Change) (hsession : c'.session = c.session.change change)
    (hconfig : c'.config = c.config) : Changed c c' :=
  ⟨hconfig, [change], hsession⟩

theorem foldl {α : Type} {step : Client → α → Client} (c : Client) (xs : List α)
    (hstep : ∀ c x, Changed c (step c x)) : Changed c (xs.foldl step c) :=
  List.foldlRecOn (motive := Changed c) _ _ (.refl c)
    fun b hbefore x _ => hbefore.trans (hstep b x)

theorem andThen {stage : Stage Client} {next : Client → Stage Client} (h : Changed c stage.state)
    (hnext : ∀ c, Changed c (next c).state) : Changed c (stage.andThen next).state :=
  Stage.andThen_induction (motive := Changed c) h fun b hbefore => hbefore.trans (hnext b)

/-- What every change keeps. -/
theorem keeps (h : Changed c c') {P : Session → Prop} (hP : ∀ {s} change, P s → P (s.change change))
    (hbefore : P c.session) : P c'.session := by
  obtain ⟨changes, hchanges⟩ := h.session
  rw [hchanges]
  exact List.foldlRecOn (motive := P) _ _ hbefore fun _ hs change _ => hP change hs

end Changed

theorem changed_watchSources (c : Client) : Changed c c.watchSources.state := by
  refine .andThen ?_ fun c => ?_
  · unfold watchControl
    simp only
    split
    · exact .refl c
    · split <;> exact .of_session_eq rfl rfl
  · unfold watchPackets
    simp only
    split
    · exact .refl c
    · split <;> exact .of_session_eq rfl rfl

theorem changed_watched (c : Client) (turn : Turn) : Changed c (c.watched turn).state := by
  have hticked : Changed c (({ c with host := c.host.supply turn.supply } : Client).withSession
      (c.session.tick (c.host.supply turn.supply).clock)) := .single (.tick _) rfl rfl
  exact hticked.trans (changed_watchSources _)

theorem changed_latched {ready : Client} (h : c.latched turn = some ready) : Changed c ready := by
  unfold latched at h
  split at h
  next => cases h
  next events host heq =>
    cases h
    have hpolled : Changed c { c with host := host } := .of_session_eq rfl rfl
    refine hpolled.trans (.foldl _ events fun c event => ?_)
    unfold latch
    split
    · exact .of_session_eq rfl rfl
    · split <;> exact .of_session_eq rfl rfl

theorem changed_ensureConnected (c : Client) : Changed c c.ensureConnected.state := by
  unfold ensureConnected
  split
  · exact .refl c
  · unfold checkConnected
    split
    · exact .of_session_eq rfl rfl
    · split <;> exact .of_session_eq rfl rfl

theorem changed_actOnDecoded (c : Client) : Changed c c.actOnDecoded := by
  have hcleared : Changed c { c with decoded := [] } := .of_session_eq rfl rfl
  exact hcleared.trans (.foldl _ c.decoded fun c msg => .single (.control msg) rfl rfl)

theorem changed_readControl (c : Client) : Changed c c.readControl.state := by
  have hskipped (c : Client) (skipped : Nat) : Changed c (c.noteSkipped skipped) := by
    unfold noteSkipped
    split
    · exact .refl c
    · exact .of_session_eq rfl rfl
  unfold readControl
  simp only
  split
  · exact .of_session_eq rfl rfl
  · refine Changed.trans ?_ ((hskipped _ _).trans (changed_actOnDecoded _))
    exact .of_session_eq rfl rfl
  · refine Changed.trans ?_ ((hskipped _ _).trans (changed_actOnDecoded _))
    exact .of_session_eq rfl rfl

theorem changed_writeControl (c : Client) : Changed c c.writeControl.state := by
  have hsettled (c : Client) (written : FramedStream.Written) :
      Changed c (c.settleWrite written).state := by
    unfold settleWrite
    simp only
    split <;> exact .of_session_eq rfl rfl
  unfold writeControl
  split
  · exact hsettled c _
  · split
    · exact .of_session_eq rfl rfl
    next heq =>
      refine Changed.trans ?_ (hsettled _ _)
      exact .single .takeControl (congrArg Prod.snd heq).symm rfl

theorem changed_reading (c : Client) : Changed c c.reading.state := by
  unfold reading
  split
  · exact changed_readControl c
  · exact .refl c

theorem changed_exchangeControl (c : Client) : Changed c c.exchangeControl.state := by
  refine .andThen (changed_reading c) fun c => ?_
  split
  · exact changed_writeControl c
  · exact .refl c

theorem changed_serveControl (c : Client) : Changed c c.serveControl.state := by
  refine .andThen (changed_ensureConnected c) fun c => ?_
  split
  · exact changed_exchangeControl c
  · exact .refl c

theorem changed_receivePacket (c : Client) (now : Instant) :
    Changed c (c.receivePacket now).state := by
  unfold receivePacket
  split
  · exact .refl c
  · split
    · exact .of_session_eq rfl rfl
    · exact .of_session_eq rfl rfl
    · exact .of_session_eq rfl rfl
    next msg sender _ _ => exact .single (.packet msg sender now) rfl rfl

theorem changed_sendPacket (c : Client) : Changed c c.sendPacket.state := by
  unfold sendPacket
  split
  · exact .refl c
  · split
    · exact .of_session_eq rfl rfl
    · split
      · exact .of_session_eq rfl rfl
      · exact .single .takePacket rfl rfl
      · exact .of_session_eq rfl rfl

theorem changed_servePackets (c : Client) (now : Instant) :
    Changed c (c.servePackets now).state :=
  .andThen (changed_receivePacket c now) changed_sendPacket

theorem changed_serve (c : Client) (lag : Duration) : Changed c (c.serve lag).state :=
  .andThen (changed_serveControl c) fun b =>
    .andThen (changed_servePackets b b.host.clock) fun _ => .of_session_eq rfl rfl

theorem changed_iterate (c : Client) (turn : Turn) : Changed c (c.iterate turn).state := by
  rw [iterate_eq]
  refine .andThen (changed_watched c turn) fun b => ?_
  cases hready : b.latched turn with
  | none =>
      obtain ⟨failure, hpoll, -⟩ := pollAndServe_of_not_latched hready
      rw [hpoll]
      exact .of_session_eq rfl rfl
  | some ready =>
      rw [pollAndServe_of_latched hready]
      exact (changed_latched hready).trans (changed_serve ready turn.lag)

/-- A client starts with a new session. -/
theorem session_start {config : PeerConfig} {near : NearEnds} {host : Host}
    (h : Client.start config near host = .ok c) :
    c.config = config ∧
      ∃ localAddr now, c.session = .start config.stunAddr localAddr config.pace now := by
  unfold Client.start at h
  simp only [bind, Except.bind, pure, Except.pure, throw, throwThe, MonadExceptOf.throw] at h
  split at h
  next => cases h
  next =>
    split at h
    next => cases h
    next =>
      split at h
      next => cases h
      next =>
        cases h
        exact ⟨rfl, _, _, rfl⟩

/-- What holds of a new session and is kept by every change holds at the head of the loop. -/
theorem Reachable.session_keeps {config : PeerConfig} (h : Reachable config c)
    {P : Session → Prop} (hP : ∀ {s} change, P s → P (s.change change))
    (hstart : ∀ localAddr now, P (.start config.stunAddr localAddr config.pace now)) :
    c.config = config ∧ P c.session := by
  induction h with
  | start h =>
      obtain ⟨hconfig, localAddr, now, hsession⟩ := session_start h
      exact ⟨hconfig, hsession ▸ hstart localAddr now⟩
  | @iterate c turn before _ ih =>
      have hchanged := changed_iterate c turn
      exact ⟨hchanged.config.trans ih.1, hchanged.keeps hP ih.2⟩

end Client
end Rendezvous
