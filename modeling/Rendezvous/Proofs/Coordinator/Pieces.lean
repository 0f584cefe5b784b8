import Rendezvous.Proofs.Coordinator.Consistency
import Rendezvous.Proofs.Coordinator.Intake

/-!
# Rendezvous.Proofs.Coordinator.Pieces

**An iteration piece by piece.** Folds over members and stages that may stop make up an
iteration, but each thing that is done in it is one of a few: a `Piece` is one call of one of
the loop's own functions, and acting on one message is the only other thing. `Work` is any
number of them, with a `Dispatch` for each message that was acted on.

`work_iterate` takes an iteration apart, also one that fails; the messages that are acted on in
it are its `dispatches`. So what holds at the start, and is kept by every piece, holds of every
run (`Work.induction`, `Worked`).
-/

namespace Rendezvous
namespace Coordinator

/-! ### Pieces -/

/-- A piece of an iteration's work, other than acting on a message. A read or a write that
fails costs the member its connection at once, so that the two are one piece. -/
inductive Piece : Coordinator → Coordinator → Prop where
  | supply (c : Coordinator) (supply : Supply) :
    Piece c { c with host := c.host.supply supply }
  | watchPackets (c : Coordinator) : Piece c c.watchPackets.state
  | watchMember (c : Coordinator) (failed : List (Handle × IoKind)) (handle : Handle) :
    Piece c (watchMember (c, failed) handle).1
  | poll (c : Coordinator) (timeout : Duration) (turn : Turn) :
    Piece c { c with host := (c.host.poll timeout turn).2 }
  | latch (c : Coordinator) (event : Event) : Piece c (c.latch event)
  | accept (c : Coordinator) (now : Instant) : Piece c (c.acceptOne now).state
  | read {c : Coordinator} {handle : Handle} {member : Member} (now : Instant)
    (present : c.roster.get? handle = some member)
    (fine : ∀ e, (member.stream.receive c.host).result ≠ .error e) :
    Piece c { (c.gather handle member now).1 with decoded := [] }
  | lose {c : Coordinator} {handle : Handle} {member : Member} (e : ChannelFailure)
    (present : c.roster.get? handle = some member)
    (failed : (member.stream.receive c.host).result = .error e) :
    Piece c
      (({ c.refilled handle member with decoded := [] } : Coordinator).dismiss handle (.channel e))
  | write {c : Coordinator} {handle : Handle} (fine : (c.writeMember handle).2 = none) :
    Piece c (c.writeMember handle).1
  | abort {c : Coordinator} {handle : Handle} {e : ChannelFailure}
    (failed : (c.writeMember handle).2 = some e) :
    Piece c ((c.writeMember handle).1.dismiss handle (.channel e))
  | dismiss (c : Coordinator) (handle : Handle) (departure : Departure) :
    Piece c (c.dismiss handle departure)
  | receive (c : Coordinator) : Piece c c.receivePacket.state
  | send (c : Coordinator) : Piece c c.sendPacket.state
  | elapse (c : Coordinator) (lag : Duration) : Piece c (c.elapse lag)
  | release (c : Coordinator) (level : Nat) :
    Piece c { c with scratch := c.scratch.releaseTo level }

/-- Any number of pieces and of messages acted on. -/
inductive Work (start : Coordinator) : List Dispatch → Coordinator → Prop where
  | none : Work start [] start
  | piece {c c' : Coordinator} {done : List Dispatch} (before : Work start done c)
    (piece : Piece c c') : Work start done c'
  | act {c : Coordinator} {done : List Dispatch} (before : Work start done c) (handle : Handle)
    (msg : Message) : Work start (done ++ [⟨c, handle, msg⟩]) (c.actOnControl handle msg)

variable {a b c c' : Coordinator} {done more : List Dispatch} {handle : Handle} {member : Member}
  {host : Host}

namespace Work

theorem single (h : Piece c c') : Work c [] c' := .piece .none h

theorem trans (hab : Work a done b) (hbc : Work b more c) : Work a (done ++ more) c := by
  induction hbc with
  | none => rwa [List.append_nil]
  | piece _ piece ih => exact .piece ih piece
  | act _ handle msg ih =>
      rw [← List.append_assoc]
      exact .act ih handle msg

/-- Work in which no message is acted on. -/
theorem thenQuiet (hab : Work a done b) (hbc : Work b [] c) : Work a done c :=
  List.append_nil done ▸ hab.trans hbc

/-- What every piece keeps, and acting on a message keeps, any work keeps. -/
theorem induction {motive : Coordinator → Prop} (h : Work a done c) (start : motive a)
    (piece : ∀ {c c'}, Piece c c' → motive c → motive c')
    (act : ∀ {c} handle msg, motive c → motive (c.actOnControl handle msg)) : motive c := by
  induction h with
  | none => exact start
  | piece _ hpiece ih => exact piece hpiece ih
  | act _ handle msg ih => exact act handle msg ih

/-- Doing something for one after the other. -/
theorem foldl {α : Type} {step : Coordinator → α → Coordinator} (c : Coordinator) (xs : List α)
    (hstep : ∀ c x, Work c [] (step c x)) : Work c [] (xs.foldl step c) :=
  List.foldlRecOn (motive := Work c []) _ _ .none fun _ h x _ => h.thenQuiet (hstep _ x)

/-- One stage after the other. -/
theorem andThen {stage : Stage Coordinator} {next : Coordinator → Stage Coordinator}
    (h : Work c done stage.state) (hnext : ∀ c, Work c [] (next c).state) :
    Work c done (stage.andThen next).state :=
  Stage.andThen_induction (motive := Work c done) h fun _ hbefore => hbefore.thenQuiet (hnext _)

end Work

/-- Every piece keeps a state consistent. -/
theorem Piece.consistent (hpiece : Piece c c') (h : Consistent c) : Consistent c' := by
  cases hpiece with
  | supply supply => exact h.calm (calm_supply (p := nobody) c supply)
  | watchPackets => exact h.calm (calm_watchPackets (p := nobody) c)
  | watchMember failed handle => exact h.calm (calm_watchMember (p := nobody) c failed handle)
  | poll timeout turn => exact h.calm (calm_poll (p := nobody) c timeout turn)
  | latch event => exact h.calm (calm_latch (p := nobody) c event)
  | accept now => exact h.acceptOne now
  | read now present _ => exact (h.gather present now).clear
  | lose e present _ => exact (h.refilled present).clear.dismiss _ _
  | write => exact h.calm (calm_writeMember (p := nobody) c _)
  | abort => exact (h.calm (calm_writeMember (p := nobody) c _)).dismiss _ _
  | dismiss handle departure => exact h.dismiss handle departure
  | receive => exact h.calm (calm_receivePacket (p := nobody) c)
  | send => exact h.calm (calm_sendPacket (p := nobody) c)
  | elapse lag => exact h.calm (calm_elapse (p := nobody) c lag)
  | release level => exact h.calm (.silent (p := nobody) rfl rfl rfl (.refl _) rfl)

theorem Work.consistent (h : Work a done c) (ha : Consistent a) : Consistent c :=
  h.induction ha (fun hpiece hc => hpiece.consistent hc) fun handle msg hc =>
    hc.actOnControl handle msg

/-- What every piece of work keeps in a consistent state, any work keeps. -/
theorem Work.consistent_induction {motive : Coordinator → Prop} (h : Work a done c)
    (ha : Consistent a) (start : motive a)
    (piece : ∀ {c c'}, Consistent c → Piece c c' → motive c → motive c')
    (act : ∀ {c} handle msg, Consistent c → motive c → motive (c.actOnControl handle msg)) :
    motive c := by
  have hboth : Consistent c ∧ motive c := by
    refine h.induction (motive := fun c => Consistent c ∧ motive c) ⟨ha, start⟩ ?_ ?_
    · exact fun hpiece hc => ⟨hpiece.consistent hc.1, piece hc.1 hpiece hc.2⟩
    · exact fun handle msg hc => ⟨hc.1.actOnControl handle msg, act handle msg hc.1 hc.2⟩
  exact hboth.2

/-! ### Taking an iteration apart -/

theorem work_watchMembers (c : Coordinator) : Work c [] c.watchMembers := by
  have hasked (handles : List Handle) (failed : List (Handle × IoKind)) :
      Work c [] (handles.foldl watchMember (c, failed)).1 :=
    List.foldlRecOn
      (motive := fun state : Coordinator × List (Handle × IoKind) => Work c [] state.1)
      _ _ .none fun state h handle _ => h.piece (.watchMember state.1 state.2 handle)
  exact (hasked _ _).thenQuiet (.foldl _ _ fun c entry => .single (.dismiss c entry.1 _))

theorem work_watched (c : Coordinator) (turn : Turn) : Work c [] (c.watched turn).state :=
  (Work.single (.supply c turn.supply)).thenQuiet
    (.andThen (.single (.watchPackets _)) fun c => work_watchMembers c)

theorem work_latched {turn : Turn} (h : c.latched turn = some c') : Work c [] c' := by
  have hpoll := Piece.poll c (c.waitTime c.host.clock) turn
  unfold latched at h
  split at h
  next => cases h
  next events host heq =>
    cases h
    rw [heq] at hpoll
    exact (Work.single hpoll).thenQuiet (.foldl _ events fun c event => .single (.latch c event))

theorem work_actEach (handle : Handle) (c : Coordinator) (msgs : List Message) :
    Work c (acted (actIntake handle c msgs))
      (msgs.foldl (fun c msg => c.actOnControl handle msg) c) := by
  induction msgs generalizing c with
  | nil => exact .none
  | cons msg msgs ih => exact (Work.act .none handle msg).trans (ih _)

/-- A member's turn to write. -/
theorem work_writeTurn (c : Coordinator) (handle : Handle) :
    Work c [] (match c.writeMember handle with
      | (c, none) => c
      | (c, some e) => c.dismiss handle (.channel e)) := by
  have hwritten := @Piece.write c handle
  have haborted := @Piece.abort c handle
  rcases hresult : c.writeMember handle with ⟨written, _ | e⟩ <;> rw [hresult] at hwritten haborted
  · exact .single (hwritten rfl)
  · exact .single (haborted rfl)

theorem work_serveOrDismiss (now : Instant) (c : Coordinator) (handle : Handle) :
    Work c (acted (c.turnIntake now handle)) (serveOrDismiss now c handle) := by
  unfold serveOrDismiss serveMember turnIntake
  rw [acted_turn]
  cases hget : c.roster.get? handle with
  | none => exact .none
  | some member =>
      simp only
      split
      next =>
        rw [readMember_eq_gather, readIntake, acted_read]
        rcases gather_cases (p := nobody) c handle member now with
          ⟨e, hfailed, hgather⟩ | ⟨hfine, hnone, -⟩
        · rw [hgather]
          exact .single (.lose e hget hfailed)
        · -- The messages that were read are acted on between the read and the write.
          rw [hnone]
          exact ((Work.single (.read now hget hfine)).trans
            (work_actEach handle _ _)).thenQuiet (work_writeTurn _ handle)
      next => exact work_writeTurn c handle

theorem work_serveEach (now : Instant) (c : Coordinator) (handles : List Handle) :
    Work c (acted (c.turnsIntake now handles)) (handles.foldl (serveOrDismiss now) c) := by
  induction handles generalizing c with
  | nil => exact .none
  | cons handle handles ih =>
      rw [turnsIntake, acted_append]
      exact (work_serveOrDismiss now c handle).trans (ih _)

theorem work_dismissIdle (c : Coordinator) (now : Instant) : Work c [] (c.dismissIdle now) :=
  .foldl c _ fun c handle => .single (.dismiss c handle .idle)

theorem work_finish (lag : Duration) (level : Nat) (c : Coordinator) :
    Work c [] (finish lag level c).state := by
  have hserved : Work c [] c.servePackets.state :=
    .andThen (.single (.receive c)) fun c => .single (.send c)
  refine .andThen hserved fun c => ?_
  have hlate := Work.single (.elapse c lag)
  exact (hlate.thenQuiet (work_dismissIdle _ _)).piece (.release _ level)

/-- An iteration that does not get past its poll does nothing more. -/
theorem work_pollAndServe {turn : Turn} (h : c.latched turn = none) :
    Work c [] (c.pollAndServe turn).state := by
  have hpoll := Piece.poll c (c.waitTime c.host.clock) turn
  unfold latched at h
  unfold pollAndServe
  split at h
  next kind host heq =>
    rw [heq] at hpoll ⊢
    cases kind <;> exact .single hpoll
  next => cases h

/-- What is done in an iteration that serves nobody. -/
theorem work_of_not_serving {turn : Turn} (h : c.serving turn = none) :
    Work c [] (c.iterate turn).state := by
  have hwatched := work_watched c turn
  unfold iterate
  change Work c [] ((c.watched turn).andThen fun c => c.pollAndServe turn).state
  unfold serving at h
  split at h
  next hstopped =>
    obtain ⟨failure, hfailure⟩ := Option.isSome_iff_exists.1 hstopped
    simpa [Stage.andThen, hfailure] using hwatched
  next hgoing =>
    rw [Stage.andThen, Option.not_isSome_iff_eq_none.1 hgoing]
    refine hwatched.thenQuiet ?_
    split at h
    next hpolled => exact work_pollAndServe hpolled
    next ready hready =>
      rw [pollAndServe_of_latched hready]
      have hlatched := work_latched hready
      have haccepted := hlatched.piece (.accept ready ready.host.clock)
      simp only at h
      split at h
      next hfailed =>
        obtain ⟨failure, hfailure⟩ := Option.isSome_iff_exists.1 hfailed
        simpa [serve, Stage.andThen, hfailure] using haccepted
      next => cases h

/-- **An iteration is a row of pieces**, also one that fails. -/
theorem work_iterate (c : Coordinator) (turn : Turn) :
    Work c (c.dispatches turn) (c.iterate turn).state := by
  rcases c.serving_cases turn with
    ⟨hserving, -⟩ | ⟨w, ready, s, hwatched, hready, haccept, hserving, hrest⟩
  · rw [dispatches, intake, hserving]
    exact work_of_not_serving hserving
  · have hw := work_watched c turn
    rw [hwatched] at hw
    have hs := (hw.thenQuiet (work_latched hready)).piece (.accept ready ready.host.clock)
    rw [haccept] at hs
    rw [dispatches, intake, hserving, hrest]
    exact (hs.trans (work_serveEach ready.host.clock s s.roster.order)).thenQuiet
      (work_finish _ _ _)

/-! ### Whole runs -/

/-- The states at the loop's head when the loop is started on a given system, each with
everything that has been acted on. -/
inductive Worked (config : CoordinatorConfig) (host : Host) :
    Coordinator → List Dispatch → Prop where
  | start {c : Coordinator} (h : Coordinator.start config host = .ok c) : Worked config host c []
  | iterate {c : Coordinator} {done : List Dispatch} (turn : Turn)
    (before : Worked config host c done) (h : (c.iterate turn).failure = none) :
    Worked config host (c.iterate turn).state (done ++ c.dispatches turn)

theorem Worked.reachable {config : CoordinatorConfig} (h : Worked config host c done) :
    Reachable config c := by
  induction h with
  | start h => exact .start h
  | iterate turn _ hgoing ih => exact .iterate turn ih hgoing

/-- Every run comes down to a start and work. -/
theorem Worked.exists_work {config : CoordinatorConfig} (h : Worked config host c done) :
    ∃ first, Coordinator.start config host = .ok first ∧ Work first done c := by
  induction h with
  | @start first h => exact ⟨first, h, .none⟩
  | @iterate c _ turn _ _ ih =>
      obtain ⟨first, hstart, hwork⟩ := ih
      exact ⟨first, hstart, hwork.trans (work_iterate c turn)⟩

/-- Every reachable state is that of a run. -/
theorem exists_worked {config : CoordinatorConfig} (h : Reachable config c) :
    ∃ host done, Worked config host c done := by
  induction h with
  | @start host _ h => exact ⟨host, [], .start h⟩
  | iterate turn _ hgoing ih =>
      obtain ⟨host, done, hworked⟩ := ih
      exact ⟨host, _, hworked.iterate turn hgoing⟩

end Coordinator
end Rendezvous
