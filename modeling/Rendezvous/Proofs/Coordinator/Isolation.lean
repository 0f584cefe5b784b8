import Rendezvous.Proofs.Coordinator.Turns
import Rendezvous.Proofs.Coordinator.WakeUp

/-!
# Rendezvous.Proofs.Coordinator.Isolation

**What goes wrong with one peer costs that peer.** A peer is lost when the poller refuses to
watch it, when serving it fails, or when it has been silent for too long. `Reachable.isolated`
follows an iteration of any reachable state through these places: each loss severs one member
and leaves all others alone, whoever is left is served once, oldest first, over the connection
that it had in the beginning, and the loop stops only for a failure of the poll or of a call on
a source that all peers share (`iterate_blames`).
-/

namespace Rendezvous

/-- The failure with which a call on a shared source stops the loop. -/
def Call.stops : Call → Option LoopFailure
  | .reregister .packetSocket _ _ (some kind) => some (.io kind)
  | .accept (.error kind) => some (.io kind)
  | .recv _ (.error kind) => some (.channel (.io kind))
  | .send _ _ (.error kind) => some (.channel (.io kind))
  | _ => none

namespace Coordinator

variable {c c' : Coordinator} {handle : Handle} {member : Member} {turn : Turn}

/-! ### What stops the loop -/

/-- If a stage fails, it does so with a call on a shared source. -/
def Blames (before : List Call) (stage : Stage Coordinator) : Prop :=
  ∀ e, stage.failure = some e →
    ∃ new, stage.state.host.calls = before ++ new ∧ ∃ call ∈ new, call.stops = some e

namespace Blames

variable {before : List Call} {stage : Stage Coordinator} {next : Coordinator → Stage Coordinator}

theorem of_going (h : stage.failure = none) : Blames before stage :=
  fun _ he => nomatch h.symm.trans he

/-- It is the last call that does it. -/
theorem of_endsIn {host : Host} {call : Call} {e : LoopFailure} (hends : EndsIn call c.host host)
    (hcall : call.stops = some e) :
    Blames c.host.calls (.stopped { c with host := host } e) := by
  rintro _ ⟨⟩
  obtain ⟨between, hcalls⟩ := hends
  exact ⟨between ++ [call], by rw [← List.append_assoc]; exact hcalls, call, by simp, hcall⟩

/-- Calls that were made before are of no account. -/
theorem mono {earlier : List Call} (h : Blames before stage) (hcalls : earlier <+: before) :
    Blames earlier stage := by
  intro e he
  obtain ⟨new, hnew, call, hmem, hcall⟩ := h e he
  obtain ⟨between, rfl⟩ := hcalls
  exact ⟨between ++ new, by rw [← List.append_assoc]; exact hnew, call,
    List.mem_append_right _ hmem, hcall⟩

theorem andThen (h : Blames before stage) (hcalls : before <+: stage.state.host.calls)
    (hnext : Blames stage.state.host.calls (next stage.state)) :
    Blames before (stage.andThen next) := by
  unfold Stage.andThen
  split
  · exact hnext.mono hcalls
  · exact h

end Blames

theorem blames_watchSources (c : Coordinator) : Blames c.host.calls c.watchSources := by
  refine Blames.andThen ?_ (calm_watchPackets (p := nobody) c).calls (.of_going rfl)
  unfold watchPackets
  simp only
  split
  next => exact .of_going rfl
  next =>
    have hcalls := c.host.calls_reregister .packetSocket tokenOfPackets
      (.onDemand (!c.outbox.isEmpty))
    split
    next kind host heq =>
      rw [heq] at hcalls
      exact .of_endsIn (.of_call hcalls) rfl
    next => exact .of_going rfl

theorem blames_acceptOne (c : Coordinator) (now : Instant) :
    Blames c.host.calls (c.acceptOne now) := by
  unfold acceptOne
  split
  next => exact .of_going rfl
  next =>
    split
    next => exact .of_going rfl
    next => exact .of_going rfl
    next heq =>
      simp only
      split
      · exact .of_going rfl
      · exact .of_endsIn (.of_call (accept_error heq).2) rfl

/-- Receiving fails with a call. -/
theorem recvDatagram_error {host : Host} {e : ChannelFailure}
    (h : (recvDatagram host).1 = .error e) :
    ∃ kind, e = .io kind ∧
      EndsIn (.recv datagramRoom (.error kind)) host (recvDatagram host).2 := by
  have hends := (recvUninterrupted_calls host datagramRoom).2
  unfold recvDatagram at h ⊢
  split at h
  next => cases h
  next kind next hblock heq =>
    cases h
    rw [heq] at hends
    exact ⟨kind, rfl, by simpa [heq] using hends⟩
  next => cases h

theorem blames_receivePacket (c : Coordinator) : Blames c.host.calls c.receivePacket := by
  have herror := @recvDatagram_error c.host
  unfold receivePacket
  split
  next => exact .of_going rfl
  next =>
    split
    next e host heq =>
      rw [heq] at herror
      obtain ⟨kind, rfl, hends⟩ := herror rfl
      exact .of_endsIn hends rfl
    next => exact .of_going rfl
    next => exact .of_going rfl
    next => exact .of_going rfl

/-- The answer to an address request fits a datagram. -/
theorem exists_encode_stunResponse (addr : SocketV4) :
    ∃ frame, (Message.stunResponse addr).encode = .ok frame ∧ frame.length ≤ longestDatagram := by
  have htotal : Put.total ((Message.stunResponse addr).puts 0) = 15 := rfl
  have hcountable : (Message.stunResponse addr).countable = true := rfl
  obtain ⟨frame, hframe, hlength⟩ := Message.encode_of_fits hcountable (by rw [htotal]; decide)
  exact ⟨frame, hframe, by rw [hlength, htotal]; decide⟩

/-- Sending what fits a datagram fails with a call. -/
theorem sendDatagram_error {msg : Message} {frame : Bytes} {target : SocketAddr}
    {scratch : Scratch} {host : Host} {e : ChannelFailure} (hframe : msg.encode = .ok frame)
    (hlength : frame.length ≤ longestDatagram)
    (h : (sendDatagram msg target scratch host).1 = .error e) :
    ∃ kind, e = .io kind ∧
      EndsIn (.send target frame (.error kind)) host
        (sendDatagram msg target scratch host).2.2 := by
  have hencoded := (msg.fst_encodeScratch scratch).trans hframe
  have hends := (sendUninterrupted_calls host target frame).2
  unfold sendDatagram at h ⊢
  rcases hscratch : msg.encodeScratch scratch with ⟨encoded, scratch'⟩
  rw [hscratch] at hencoded h
  obtain rfl : encoded = .ok frame := hencoded
  simp only [Nat.not_lt.2 hlength, if_false] at h ⊢
  split at h
  next => cases h
  next => cases h
  next kind next hblock heq =>
    cases h
    rw [heq] at hends
    exact ⟨kind, rfl, by simpa [heq] using hends⟩

theorem blames_sendPacket (h : Consistent c) : Blames c.host.calls c.sendPacket := by
  unfold sendPacket
  split
  next => exact .of_going rfl
  next =>
    split
    next => exact .of_going rfl
    next msg target rest hbox =>
      obtain ⟨addr, haddr⟩ := h.answers (msg, target) (hbox ▸ List.mem_cons_self)
      obtain rfl : msg = .stunResponse addr := haddr
      obtain ⟨frame, hframe, hlength⟩ := exists_encode_stunResponse addr
      have herror := @sendDatagram_error (.stunResponse addr) frame target c.scratch c.host
      split
      next e scratch host heq =>
        obtain ⟨kind, rfl, hends⟩ := herror hframe hlength (congrArg Prod.fst heq)
        rw [heq] at hends
        exact .of_endsIn (c := { c with scratch := scratch }) hends rfl
      next => exact .of_going rfl
      next => exact .of_going rfl

theorem blames_finish (h : Consistent c) (lag : Duration) (level : Nat) :
    Blames c.host.calls (finish lag level c) := by
  have hreceived := calm_receivePacket (p := nobody) c
  have hserved := calm_servePackets (p := nobody) c
  refine Blames.andThen ?_ hserved.calls (.of_going rfl)
  exact (blames_receivePacket c).andThen hreceived.calls (blames_sendPacket (h.calm hreceived))

theorem calls_serveEach (c : Coordinator) (now : Instant) (handles : List Handle) :
    c.host.calls <+: (handles.foldl (serveOrDismiss now) c).host.calls := by
  refine List.foldlRecOn (motive := fun b : Coordinator => c.host.calls <+: b.host.calls) _ _
    List.prefix_rfl fun b hbefore handle _ => hbefore.trans ?_
  have hserved := b.calls_serveMember handle now
  unfold serveOrDismiss
  split
  next heq => rwa [heq] at hserved
  next served e heq =>
    rw [heq] at hserved
    exact hserved.trans (calm_dismiss (p := anyone) served trivial (.channel e)).calls

theorem calls_acceptOne (c : Coordinator) (now : Instant) :
    c.host.calls <+: (c.acceptOne now).state.host.calls := by
  rcases acceptOne_cases (p := anyone) c now fun _ _ _ => trivial with
    hcalm | ⟨id, addr, host, haccept, -, hcalm⟩
  · exact hcalm.calls
  · refine List.IsPrefix.trans ?_ hcalm.calls
    rw [(accept_ok haccept).2.2]
    exact List.prefix_append ..

theorem blames_serve (h : Consistent c) (lag : Duration) : Blames c.host.calls (c.serve lag) := by
  have hserve : c.serve lag = (c.acceptOne c.host.clock).andThen fun s =>
      finish lag c.scratch.level (s.serveMembers c.host.clock) := rfl
  have haccepted := h.acceptOne c.host.clock
  rw [hserve]
  refine (blames_acceptOne c _).andThen (calls_acceptOne c _) ?_
  exact (blames_finish (haccepted.serveEach c.host.clock _) _ _).mono (calls_serveEach _ _ _)

theorem poll_error {host next : Host} {timeout : Duration} {kind : IoKind}
    (h : host.poll timeout turn = (.error kind, next)) : turn.pollFailure = some kind := by
  unfold Host.poll at h
  simp only at h
  split at h
  next heq =>
    cases h
    exact heq
  next => cases h

/-- An iteration fails only with its poll or with a call on a shared source. -/
theorem iterate_blames (h : Consistent c) (turn : Turn) :
    (∃ kind, turn.pollFailure = some kind ∧ (c.iterate turn).failure = some (.io kind)) ∨
      Blames c.host.calls (c.iterate turn) := by
  have hsources : Blames c.host.calls (c.watched turn) := by
    rw [← c.host.calls_supply turn.supply]
    exact blames_watchSources { c with host := c.host.supply turn.supply }
  have hcalm := calm_watched c turn
  have hiterate : c.iterate turn = (c.watched turn).andThen fun w => w.pollAndServe turn := rfl
  rw [hiterate]
  rcases hstage : c.watched turn with ⟨w, _ | failure⟩
  · rw [hstage] at hcalm
    have hpoll := calm_poll (p := nobody) w (w.waitTime w.host.clock) turn
    change _ ∨ Blames c.host.calls (w.pollAndServe turn)
    simp only [Stage.andThen]
    unfold pollAndServe
    split
    next => exact .inr (.of_going rfl)
    next kind host _ heq => exact .inl ⟨kind, poll_error heq, rfl⟩
    next events host heq =>
      rw [heq] at hpoll
      have hlatched := hpoll.trans (.foldl _ events fun c event _ => calm_latch c event)
      exact .inr ((blames_serve ((h.calm hcalm).calm hlatched) turn.lag).mono
        (hcalm.calls.trans hlatched.calls))
  · rw [hstage] at hsources
    exact .inr hsources

/-! ### The places in an iteration where members are lost -/

/-- The state in which the poller is asked for every member, unless the loop stops before. -/
def asking (c : Coordinator) (turn : Turn) : Option Coordinator :=
  let stage := ({ c with host := c.host.supply turn.supply } : Coordinator).watchPackets
  if stage.failure.isSome then none else some stage.state

/-- The state in which overdue members are dismissed, unless the iteration ends before. Its time
is later than that at which they have been served, by the lag. -/
def expiring (c : Coordinator) (turn : Turn) : Option Coordinator :=
  match c.serving turn with
  | none => none
  | some (s, now) =>
    let stage := (s.serveMembers now).servePackets
    if stage.failure.isSome then none else some (stage.state.elapse turn.lag)

theorem roster_watchPackets (c : Coordinator) : c.watchPackets.state.roster = c.roster := by
  unfold watchPackets
  simp only
  split
  · rfl
  · split <;> rfl

theorem asking_cases (c : Coordinator) (turn : Turn) :
    (c.asking turn = none ∧ (c.watched turn).failure ≠ none ∧
        (c.watched turn).state.roster = c.roster) ∨
      ∃ a, c.asking turn = some a ∧ a.roster = c.roster ∧ Calm nobody c a ∧
        c.watched turn = .going ((a.askEach a.roster.order).1.dismissEach a.refusals) := by
  have hroster := roster_watchPackets { c with host := c.host.supply turn.supply }
  have hcalm := (calm_supply (p := nobody) c turn.supply).trans
    (calm_watchPackets { c with host := c.host.supply turn.supply })
  unfold asking watched watchSources
  rcases hstage : ({ c with host := c.host.supply turn.supply } : Coordinator).watchPackets with
    ⟨a, _ | failure⟩
  · rw [hstage] at hroster hcalm
    exact .inr ⟨a, by simp, hroster, hcalm, by simp [Stage.andThen, watchMembers_eq]⟩
  · rw [hstage] at hroster
    exact .inl ⟨by simp, by simp [Stage.andThen], by simpa [Stage.andThen] using hroster⟩

/-- Events change nothing about members but their readiness. -/
theorem get?_latched {w ready : Coordinator} (h : w.latched turn = some ready) (handle : Handle) :
    ∃ latch : Member → Latch, ready.roster.get? handle =
      (w.roster.get? handle).map fun member => { member with latch := latch member } := by
  unfold latched at h
  split at h
  next => cases h
  next events host heq =>
    cases h
    refine List.foldlRecOn (motive := fun b : Coordinator => ∃ latch : Member → Latch,
      b.roster.get? handle =
        (w.roster.get? handle).map fun member => { member with latch := latch member }) _ _
      ⟨Member.latch, by cases w.roster.get? handle <;> simp⟩ fun b hbefore event _ => ?_
    obtain ⟨before, hbefore⟩ := hbefore
    unfold latch
    split
    · exact ⟨before, hbefore⟩
    · split
      · exact ⟨before, hbefore⟩
      · split
        next reported _ =>
          rw [modifyMember, Roster.get?_modify, hbefore]
          split
          · exact ⟨fun member => (before member).merge event.flags, by rw [Option.map_map]; rfl⟩
          · exact ⟨before, rfl⟩
        next => exact ⟨before, hbefore⟩

/-- Whoever is attached in an accept is attached last, and taken off again if the poller
refuses. -/
theorem roster_acceptOne (c : Coordinator) (now : Instant) :
    (c.acceptOne now).state.roster = c.roster ∨
      ∃ stream addr timer,
        (c.acceptOne now).state.roster = (c.roster.enroll stream addr timer).val.2 ∨
          (c.acceptOne now).state.roster =
            ((c.roster.enroll stream addr timer).val.2.detach
              (c.roster.enroll stream addr timer).val.1).2 := by
  unfold acceptOne
  split
  next => exact .inl rfl
  next =>
    split
    next id addr host _ =>
      refine .inr ⟨.ofStream id, addr, ⟨now, c.config.idleTimeout⟩, ?_⟩
      unfold welcome
      simp only [Stage.state_going]
      split
      next => exact .inr rfl
      next => exact .inl rfl
    next => exact .inl rfl
    next =>
      simp only
      split <;> exact .inl rfl

theorem acceptOne_order (h : c.roster.WellFormed) (now : Instant) :
    ∃ newcomers : List Handle, newcomers.length ≤ 1 ∧
      (c.acceptOne now).state.roster.order = c.roster.order ++ newcomers := by
  rcases c.roster_acceptOne now with hsame | ⟨stream, addr, timer, hroster | hroster⟩
  · exact ⟨[], Nat.zero_le _, by rw [hsame, List.append_nil]⟩
  · exact ⟨[_], Nat.le_refl _, by rw [hroster, Roster.order_enroll h]⟩
  · refine ⟨[], Nat.zero_le _, ?_⟩
    have hold : ∀ other ∈ c.roster.order, other ≠ (c.roster.enroll stream addr timer).val.1 := by
      rintro other hmem rfl
      obtain ⟨member, hget⟩ := (Roster.mem_order h).1 hmem
      cases hget.symm.trans (Roster.get?_fst_enroll h stream addr timer)
    rw [hroster, Roster.order_detach (h.enroll stream addr timer), Roster.order_enroll h,
      List.filter_append, List.filter_eq_self.2 fun other hmem => decide_eq_true (hold other hmem)]
    simp

theorem get?_acceptOne (h : c.roster.WellFormed) (hget : c.roster.get? handle = some member)
    (now : Instant) : (c.acceptOne now).state.roster.get? handle = some member := by
  rcases c.roster_acceptOne now with hsame | ⟨stream, addr, timer, hroster | hroster⟩
  · rw [hsame, hget]
  · rw [hroster, Roster.get?_enroll_of_get? h hget]
  · rw [hroster, Roster.get?_detach (h.enroll stream addr timer), if_neg,
      Roster.get?_enroll_of_get? h hget]
    rintro rfl
    cases hget.symm.trans (Roster.get?_fst_enroll h stream addr timer)

theorem roster_servePackets (c : Coordinator) : c.servePackets.state.roster = c.roster := by
  refine Stage.andThen_induction (motive := fun b : Coordinator => b.roster = c.roster) ?_
    fun b hbefore => ?_
  · unfold receivePacket
    split
    · rfl
    · split
      · rfl
      · rfl
      · rfl
      · unfold actOnPacket
        simp only
        split <;> rfl
  · rw [← hbefore]
    unfold sendPacket
    split
    · rfl
    · split
      · rfl
      · split
        · rfl
        · unfold countPacket
          simp only
          split <;> rfl
        · rfl

theorem roster_pollAndServe (h : c.latched turn = none) :
    (c.pollAndServe turn).state.roster = c.roster := by
  unfold latched at h
  unfold pollAndServe
  split at h
  next kind host heq =>
    rw [heq]
    cases kind <;> rfl
  next => cases h

/-- An iteration that serves nobody ends with the poll at the latest, or with an accept. -/
theorem iterate_of_serving_none (h : c.serving turn = none) :
    (c.iterate turn).state.roster = (c.watched turn).state.roster ∨
      ∃ w ready, c.watched turn = .going w ∧ w.latched turn = some ready ∧
        (c.iterate turn).state = (ready.acceptOne ready.host.clock).state := by
  have hiterate : c.iterate turn = (c.watched turn).andThen fun w => w.pollAndServe turn := rfl
  rw [hiterate]
  unfold serving at h
  rcases hstage : c.watched turn with ⟨w, _ | failure⟩
  · rw [hstage] at h
    cases hready : w.latched turn with
    | none => exact .inl (roster_pollAndServe hready)
    | some ready =>
        refine .inr ⟨w, ready, rfl, hready, ?_⟩
        have hserve : (Stage.andThen ⟨w, none⟩ fun w => w.pollAndServe turn) =
            (ready.acceptOne ready.host.clock).andThen fun s =>
              finish turn.lag ready.scratch.level (s.serveMembers ready.host.clock) :=
          pollAndServe_of_latched hready
        rw [hserve]
        rcases haccepted : ready.acceptOne ready.host.clock with ⟨s, _ | failure⟩
        · simp [hready, haccepted] at h
        · rfl
  · exact .inl rfl

theorem exists_latched (w : Coordinator) (hpoll : turn.pollFailure = none) :
    ∃ ready, w.latched turn = some ready := by
  simp [latched, Host.poll, hpoll]

/-- An iteration that fails neither with its poll nor otherwise gets to its end. -/
theorem exists_expiring (hpoll : turn.pollFailure = none)
    (hgoing : (c.iterate turn).failure = none) : ∃ x, c.expiring turn = some x := by
  have hstages : ((c.watched turn).andThen fun w => w.pollAndServe turn).failure = none := hgoing
  obtain ⟨hwatched, hserved, -⟩ := Stage.going_of_andThen hstages
  obtain ⟨ready, hready⟩ := exists_latched (c.watched turn).state hpoll
  rw [pollAndServe_of_latched hready] at hserved
  obtain ⟨haccepted, hfinished, -⟩ := Stage.going_of_andThen hserved
  obtain ⟨hpackets, -, -⟩ := Stage.going_of_andThen hfinished
  have hserving : c.serving turn =
      some ((ready.acceptOne ready.host.clock).state, ready.host.clock) := by
    simp [serving, hwatched, hready, haccepted]
  simp [expiring, hserving, hpackets]

/-- An iteration that has served its members dismisses those that are overdue, unless it stops
with the packet socket. -/
theorem iterate_of_serving {s : Coordinator} {now : Instant}
    (h : c.serving turn = some (s, now)) :
    (c.expiring turn = none ∧ (c.iterate turn).failure ≠ none ∧
        (c.iterate turn).state.roster = (s.serveMembers now).roster) ∨
      ∃ x, c.expiring turn = some x ∧ x.roster = (s.serveMembers now).roster ∧
        (c.iterate turn).failure = none ∧
          (c.iterate turn).state.roster =
            (x.dismissEach (x.overdueLosses x.host.clock)).roster := by
  rcases c.serving_cases turn with ⟨hnone, -⟩ | ⟨_, ready, s', -, -, -, hserving, hrest⟩
  · cases hnone.symm.trans h
  · cases hserving.symm.trans h
    have hroster := (s.serveMembers ready.host.clock).roster_servePackets
    rw [hrest]
    unfold expiring finish
    rw [h]
    simp only
    rcases hstage : (s.serveMembers ready.host.clock).servePackets with ⟨x, _ | failure⟩
    · rw [hstage] at hroster
      exact .inr ⟨x.elapse turn.lag, by simp, hroster, by simp [Stage.andThen],
        by simp [Stage.andThen, dismissIdle_eq]⟩
    · rw [hstage] at hroster
      exact .inl ⟨by simp, by simp [Stage.andThen], by simpa [Stage.andThen] using hroster⟩

/-! ### Who is lost where -/

theorem Consistent.asking (h : Consistent c) {a : Coordinator} (ha : c.asking turn = some a) :
    Consistent a ∧ a.roster = c.roster := by
  rcases c.asking_cases turn with ⟨hnone, -⟩ | ⟨a', hsome, hroster, hcalm, -⟩
  · cases hnone.symm.trans ha
  · cases hsome.symm.trans ha
    exact ⟨h.calm hcalm, hroster⟩

theorem Consistent.expiring (h : Consistent c) {x : Coordinator}
    (hx : c.expiring turn = some x) : Consistent x := by
  unfold Coordinator.expiring at hx
  split at hx
  next => cases hx
  next s now hs =>
    simp only [Option.ite_none_left_eq_some, Option.some.injEq] at hx
    obtain ⟨-, rfl⟩ := hx
    exact ((h.serving hs).serveEach now s.roster.order).calm
      ((calm_servePackets (p := nobody) (s.serveMembers now)).trans (calm_elapse _ turn.lag))

/-- Whoever is not refused is watched for what it needs. -/
theorem get?_watched (h : Consistent c) (hget : c.roster.get? handle = some member)
    (hkeep : ∀ a, c.asking turn = some a → handle ∉ a.refusals.map Prod.fst) :
    ∃ watch, (c.watched turn).state.roster.get? handle = some { member with watch := watch } := by
  rcases c.asking_cases turn with ⟨-, -, hroster⟩ | ⟨a, hasking, hroster, hcalm, hwatched⟩
  · exact ⟨member.watch, by rw [hroster, hget]⟩
  · have ha := h.calm hcalm
    obtain ⟨watch, hwatch⟩ := (asked_askEach ha).get? handle
    refine ⟨watch member, ?_⟩
    rw [hwatched, Stage.state_going, (parted_refusals ha).get?, if_neg (hkeep a hasking), hwatch,
      hroster, hget]
    rfl

/-- It keeps everything but its readiness until members are served. -/
theorem get?_accepted {w ready : Coordinator} (h : Consistent w)
    (hready : w.latched turn = some ready) {watch : Interest}
    (hget : w.roster.get? handle = some { member with watch := watch }) :
    ∃ latch, (ready.acceptOne ready.host.clock).state.roster.get? handle =
      some { member with watch := watch, latch := latch } := by
  obtain ⟨latch, hlatch⟩ := get?_latched hready handle
  rw [hget] at hlatch
  exact ⟨_, get?_acceptOne (h.calm (calm_latched (p := nobody) hready)).roster hlatch _⟩

theorem kept_until_served (h : Consistent c) {s : Coordinator} {now : Instant}
    (hs : c.serving turn = some (s, now)) (hget : c.roster.get? handle = some member)
    (hkeep : ∀ a, c.asking turn = some a → handle ∉ a.refusals.map Prod.fst) :
    ∃ watch latch, s.roster.get? handle = some { member with watch := watch, latch := latch } := by
  obtain ⟨watch, hwatch⟩ := get?_watched h hget hkeep
  have hwatched := calm_watched c turn
  rcases c.serving_cases turn with ⟨hnone, -⟩ | ⟨w, ready, s', hw, hready, haccept, hsome, -⟩
  · cases hnone.symm.trans hs
  · cases hsome.symm.trans hs
    rw [hw] at hwatch hwatched
    obtain ⟨latch, hlatch⟩ := get?_accepted (h.calm hwatched) hready hwatch
    rw [haccept] at hlatch
    exact ⟨watch, latch, hlatch⟩

theorem kept_unserved (h : Consistent c) (hs : c.serving turn = none)
    (hget : c.roster.get? handle = some member)
    (hkeep : ∀ a, c.asking turn = some a → handle ∉ a.refusals.map Prod.fst) :
    ∃ watch latch, (c.iterate turn).state.roster.get? handle =
      some { member with watch := watch, latch := latch } := by
  obtain ⟨watch, hwatch⟩ := get?_watched h hget hkeep
  have hwatched := calm_watched c turn
  rcases iterate_of_serving_none hs with hroster | ⟨w, ready, hw, hready, hstate⟩
  · exact ⟨watch, member.latch, by rw [hroster, hwatch]⟩
  · rw [hw] at hwatch hwatched
    obtain ⟨latch, hlatch⟩ := get?_accepted (h.calm hwatched) hready hwatch
    exact ⟨watch, latch, by rw [hstate, hlatch]⟩

/-- Those who are served are those who were there and are not refused, and somebody new. -/
theorem order_serving (h : Consistent c) {s : Coordinator} {now : Instant}
    (hs : c.serving turn = some (s, now)) :
    ∃ a newcomers, c.asking turn = some a ∧ newcomers.length ≤ 1 ∧ s.roster.order =
      (c.roster.order.filter fun handle => handle ∉ a.refusals.map Prod.fst) ++ newcomers := by
  have hwatched := calm_watched c turn
  rcases c.serving_cases turn with ⟨hnone, -⟩ | ⟨w, ready, s', hw, hready, haccept, hsome, -⟩
  · cases hnone.symm.trans hs
  · cases hsome.symm.trans hs
    rcases c.asking_cases turn with ⟨-, hfailed, -⟩ | ⟨a, ha, hroster, hcalm, hstage⟩
    · exact absurd (by rw [hw]; rfl) hfailed
    · rw [hw] at hwatched
      have hwConsistent : Consistent w := h.calm hwatched
      have hlatched := hwConsistent.calm (calm_latched (p := nobody) hready)
      obtain ⟨newcomers, hone, horder⟩ := acceptOne_order hlatched.roster ready.host.clock
      refine ⟨a, newcomers, ha, hone, ?_⟩
      rw [haccept, Stage.state_going, (hwConsistent.unmoved (calm_latched hready)).order] at horder
      obtain rfl : w = (a.askEach a.roster.order).1.dismissEach a.refusals :=
        congrArg Stage.state (hw.symm.trans hstage)
      have ha' := h.calm hcalm
      rw [horder, (parted_refusals ha').order, (asked_askEach ha').order, hroster]

theorem expired_expiring (h : Consistent c) {x : Coordinator} (hx : c.expiring turn = some x) :
    Parted x (x.overdueLosses x.host.clock) ∧
      ∀ handle, handle ∈ (x.overdueLosses x.host.clock).map Prod.fst ↔
        ∃ member, x.roster.get? handle = some member ∧ member.timer.ranOut x.host.clock = true := by
  have hconsistent := h.expiring hx
  refine ⟨parted_overdue hconsistent _, fun handle => ?_⟩
  rw [map_fst_overdueLosses, mem_overdue hconsistent.roster]

/-! ### One iteration -/

/-- An iteration loses members one by one, and for the reasons that there are. -/
structure Isolated (c : Coordinator) (turn : Turn) : Prop where
  /-- Before its poll it asks the poller for every member, -/
  asked : ∀ a, c.asking turn = some a → a.roster = c.roster ∧
    Asked a.roster.order a (a.askEach a.roster.order).1 (a.askEach a.roster.order).2
  /-- and those whom the poller refuses go, each of them alone. -/
  refused : ∀ a, c.asking turn = some a → Parted (a.askEach a.roster.order).1 a.refusals
  /-- All others are there when members are served, and at the end if none are; up to then
  nothing changes about them but what they are watched for and their readiness. -/
  kept : ∀ handle member, c.roster.get? handle = some member →
    (∀ a, c.asking turn = some a → handle ∉ a.refusals.map Prod.fst) →
      (∀ s now, c.serving turn = some (s, now) → ∃ watch latch,
        s.roster.get? handle = some { member with watch := watch, latch := latch }) ∧
      (c.serving turn = none → ∃ watch latch, (c.iterate turn).state.roster.get? handle =
        some { member with watch := watch, latch := latch })
  /-- They are served in their old order, and after them at most one whose connection has just
  been accepted. -/
  order : ∀ s now, c.serving turn = some (s, now) → ∃ a newcomers, c.asking turn = some a ∧
    newcomers.length ≤ 1 ∧ s.roster.order =
      (c.roster.order.filter fun handle => handle ∉ a.refusals.map Prod.fst) ++ newcomers
  /-- Each of them takes a turn, which it loses nobody else by. -/
  turns : ∀ s now, c.serving turn = some (s, now) → Turns now s
  /-- Last, those go whose timers have run out, each of them alone. -/
  expired : ∀ x, c.expiring turn = some x → Parted x (x.overdueLosses x.host.clock) ∧
    ∀ handle, handle ∈ (x.overdueLosses x.host.clock).map Prod.fst ↔
      ∃ member, x.roster.get? handle = some member ∧ member.timer.ranOut x.host.clock = true
  /-- Nobody is lost otherwise. -/
  left : ∀ s now, c.serving turn = some (s, now) →
    (c.expiring turn = none ∧ (c.iterate turn).failure ≠ none ∧
        (c.iterate turn).state.roster = (s.serveMembers now).roster) ∨
      ∃ x, c.expiring turn = some x ∧ x.roster = (s.serveMembers now).roster ∧
        (c.iterate turn).failure = none ∧
          (c.iterate turn).state.roster = (x.dismissEach (x.overdueLosses x.host.clock)).roster
  /-- The loop stops only with the poll or with a call on a source that all share; -/
  stops : (∃ kind, turn.pollFailure = some kind ∧ (c.iterate turn).failure = some (.io kind)) ∨
    Blames c.host.calls (c.iterate turn)
  /-- otherwise all of this happens. -/
  whole : turn.pollFailure = none → (c.iterate turn).failure = none →
    ∃ x, c.expiring turn = some x

/-- **A failure costs one peer.** -/
theorem Reachable.isolated {config : CoordinatorConfig} (h : Reachable config c) (turn : Turn) :
    Isolated c turn := by
  have hc := h.consistent
  exact
    { asked := fun a ha => ⟨(hc.asking ha).2, asked_askEach (hc.asking ha).1⟩
      refused := fun a ha => parted_refusals (hc.asking ha).1
      kept := fun handle member hget hkeep =>
        ⟨fun s now hs => kept_until_served hc hs hget hkeep,
          fun hs => kept_unserved hc hs hget hkeep⟩
      order := fun s now hs => order_serving hc hs
      turns := fun s now hs => Coordinator.turns (hc.serving hs) now
      expired := fun x hx => expired_expiring hc hx
      left := fun s now hs => iterate_of_serving hs
      stops := iterate_blames hc turn
      whole := exists_expiring }

/-- The first of two peers closes its connection, and the second one announces itself. -/
def closingTurn : Turn :=
  { Observed.arrivalTurn with
    supply := ⟨[], [(⟨0⟩, ⟨[.eof], []⟩), (⟨1⟩, ⟨[.data Observed.announcementFrame], []⟩)],
      [], [], [], [], []⟩
    events := [⟨tokenOfMember ⟨0⟩, ⟨true, false, false, false, false⟩⟩,
      ⟨tokenOfMember ⟨1⟩, ⟨true, false, false, false, false⟩⟩] }

/-- The first one is lost with the message that is queued for it and the address that it has
announced from; the second one has its turn and announces from the same address. -/
theorem isolated_of_closed :
    ∃ c, Reachable .default c ∧ Isolated c closingTurn ∧
      c.roster.order = [⟨0⟩, ⟨1⟩] ∧ (c.roster.pending ⟨0⟩).length = 1 ∧
        c.roster.addresses.get? ⟨.ofOctets 192 0 2 7, 40000⟩ = some ⟨0⟩ ∧
        (c.iterate closingTurn).failure = none ∧
          (c.iterate closingTurn).state.roster.order = [⟨1⟩] ∧
            (c.iterate closingTurn).state.roster.messages.size = 1 ∧
              (c.iterate closingTurn).state.roster.addresses.get?
                ⟨.ofOctets 192 0 2 7, 40000⟩ = some ⟨1⟩ := by
  have hstart := @Reachable.start .default .idle _ rfl
  have hannounced := (hstart.iterate Observed.arrivalTurn (by decide +kernel)).iterate
    Observed.announcementTurn (by decide +kernel)
  have hreached := hannounced.iterate Observed.arrivalTurn (by decide +kernel)
  exact ⟨_, hreached, hreached.isolated closingTurn, by decide +kernel, by decide +kernel,
    by decide +kernel, by decide +kernel, by decide +kernel, by decide +kernel,
    by decide +kernel⟩

end Coordinator
end Rendezvous
