import Rendezvous.Proofs.Channel.Reception
import Rendezvous.Proofs.Coordinator.Clock
import Rendezvous.Proofs.Coordinator.Registrations

/-!
# Rendezvous.Proofs.Coordinator.Activity

**A member's timer is restarted by bytes that are read from it, and by nothing else.** A
connection shows a sign of life when it is accepted, and whenever a read of it gets bytes
(`Call.enlivens`). What an iteration does up to the point where it dismisses whoever is overdue is
`Tended`: a member that is there afterwards has either shown a sign of life since, and its timer has
been started at the time of the iteration, or it has shown none and has the timer that it had.

* Most stages get nothing in and leave all timers alone (`TimersKept`); `Tended.of_calm` is about
  them.
* `tended_acceptOne`, `tended_gather` and `tended_lose` are the three stages in which something
  comes in. Bytes that are read from one member are no sign of life of another, because no two
  members have one stream (`Distinct`).
* `tended_expiring` puts the stages together.
-/

namespace Rendezvous

variable {id : StreamId}

/-- Does a call show that a connection lives? It does if it accepts the connection or gets bytes
from it. -/
def Call.enlivens (id : StreamId) : Call → Bool
  | .accept (.ok stream) => stream = id
  | .read stream _ (.ok bytes) => stream = id && !bytes.isEmpty
  | _ => false

namespace Call

variable {call : Call}

theorem not_enlivens_of_not_bringsIn (h : call.bringsIn = false) (id : StreamId) :
    call.enlivens id = false := by
  unfold enlivens
  split
  · cases h
  · cases h
  · rfl

theorem not_enlivens_of_readsFrom {stream : StreamId} (h : call.readsFrom stream = true)
    (hother : id ≠ stream) : call.enlivens id = false := by
  unfold enlivens
  split
  · cases h
  · have hread : _ = stream := of_decide_eq_true h
    simp [hread, hother.symm]
  · rfl

end Call

/-- A read that gets bytes shows that the stream lives, and one that gets none does not. -/
theorem receive_enlivens (stream : FramedStream) (host : Host) :
    ∃ new, (stream.receive host).host.calls = host.calls ++ new ∧
      (∀ call ∈ new, call.readsFrom stream.id = true) ∧
      ((stream.receive host).result = .ok .dry → ∀ call ∈ new, call.enlivens stream.id = false) ∧
      ∀ count, (stream.receive host).result = .ok (.read count) →
        ∃ call ∈ new, call.enlivens stream.id = true := by
  obtain ⟨new, hnew, hreads⟩ := stream.added_receive host
  obtain ⟨-, count, hcalls⟩ := readUninterrupted_reads host stream.id stream.reassembly.room
  refine ⟨new, hnew, hreads, ?_⟩
  -- Of the calls only the last one has an answer; those before it were interrupted.
  rw [FramedStream.host_receive, hcalls, List.append_assoc, List.append_cancel_left_eq] at hnew
  subst hnew
  unfold FramedStream.receive
  split
  next heq =>
    refine ⟨fun _ call hcall => ?_, nofun⟩
    rcases List.mem_append.1 hcall with hcall | hcall
    · rw [List.eq_of_mem_replicate hcall]
      rfl
    · rw [List.mem_singleton.1 hcall, heq]
      rfl
  next => exact ⟨nofun, nofun⟩
  next => exact ⟨nofun, nofun⟩
  next bytes _ hsome heq =>
    refine ⟨fun h => ?_, fun _ _ => ⟨_, List.mem_append_right _ (List.mem_singleton_self _), ?_⟩⟩
    · simp only at h
      split at h <;> cases h
    · rw [heq]
      simpa [Call.enlivens] using hsome

namespace Coordinator

variable {a b c c' : Coordinator} {handle other : Handle} {member : Member} {host : Host}
  {turn : Turn} {limit : Option Duration} {now : Instant}

/-! ### Timers that run on -/

/-- Whoever is there has the timer that it had. -/
def TimersKept (c c' : Coordinator) : Prop :=
  ∀ handle member', c'.roster.get? handle = some member' →
    ∃ member, c.roster.get? handle = some member ∧ member'.timer = member.timer

namespace TimersKept

theorem of_roster_eq (h : c'.roster = c.roster) : TimersKept c c' :=
  fun _ _ hget => ⟨_, h ▸ hget, rfl⟩

theorem refl (c : Coordinator) : TimersKept c c := of_roster_eq rfl

theorem trans (hab : TimersKept a b) (hbc : TimersKept b c) : TimersKept a c := by
  intro handle last hlast
  obtain ⟨middle, hmiddle, htimer⟩ := hbc handle last hlast
  obtain ⟨first, hfirst, htimer'⟩ := hab handle middle hmiddle
  exact ⟨first, hfirst, htimer.trans htimer'⟩

theorem modifyMember (c : Coordinator) (handle : Handle) {f : Member → Member}
    (hf : ∀ member, (f member).timer = member.timer) :
    TimersKept c (c.modifyMember handle f) := by
  intro other member' hget
  obtain ⟨member, hmember, ⟨-, rfl⟩ | ⟨-, rfl⟩⟩ := get?_of_modifyMember hget
  · exact ⟨_, hmember, rfl⟩
  · exact ⟨member, hmember, hf member⟩

theorem latched (h : c.latched turn = some c') : TimersKept c c' := by
  intro handle member' hget
  obtain ⟨latch, hlatch⟩ := get?_latched h handle
  rw [hlatch] at hget
  obtain ⟨member, hmember, rfl⟩ := Option.map_eq_some_iff.1 hget
  exact ⟨member, hmember, rfl⟩

theorem actOnControl (c : Coordinator) (handle : Handle) (msg : Message) :
    TimersKept c (c.actOnControl handle msg) := by
  have hroster := c.roster_actOnControl handle msg
  cases msg with
  | connect entry =>
      intro other member' hget
      obtain ⟨entries, slots, hslots⟩ := c.roster.get?_introduce handle entry other
      rw [hroster, hslots] at hget
      obtain ⟨member, hmember, rfl⟩ := Option.map_eq_some_iff.1 hget
      exact ⟨member, hmember, rfl⟩
  | _ => exact of_roster_eq hroster

theorem settleWrite (c : Coordinator) (handle : Handle) (written : FramedStream.Written) :
    TimersKept c (c.settleWrite handle written) := by
  have hstored : TimersKept c
      (({ c with host := written.host } : Coordinator).modifyMember handle fun member =>
        { member with stream := written.stream }) :=
    .trans (of_roster_eq rfl) (modifyMember { c with host := written.host } handle fun _ => rfl)
  unfold Coordinator.settleWrite
  simp only
  split
  · exact hstored.trans (modifyMember _ handle fun _ => rfl)
  · exact hstored

theorem takeNext (c : Coordinator) (handle : Handle) (scratch : Scratch) :
    TimersKept c { c with roster := (c.roster.takeNext handle).2, scratch := scratch } := by
  intro other member' hget
  obtain ⟨member, hmember, ⟨-, rfl⟩ | ⟨-, rfl⟩⟩ := Roster.get?_of_takeNext hget
  · exact ⟨_, hmember, rfl⟩
  · exact ⟨member, hmember, rfl⟩

theorem writeNext (c : Coordinator) (handle : Handle) (member : Member) :
    TimersKept c (c.writeNext handle member).1 := by
  unfold Coordinator.writeNext
  rcases hnext : c.roster.takeNext handle with ⟨_ | msg, roster⟩
  · have htaken := takeNext c handle c.scratch
    rw [hnext] at htaken
    exact htaken.trans (modifyMember _ handle fun _ => rfl)
  · have htaken := takeNext c handle (member.stream.transmit msg c.scratch c.host).2
    rw [hnext] at htaken
    have hsettled := htaken.trans
      (settleWrite _ handle (member.stream.transmit msg c.scratch c.host).1)
    simp only
    split
    · exact hsettled
    · exact hsettled.trans (of_roster_eq (alike_countSent _ _ _).roster)

theorem writeMember (c : Coordinator) (handle : Handle) :
    TimersKept c (c.writeMember handle).1 := by
  unfold Coordinator.writeMember
  split
  next => exact refl c
  next member _ =>
    split
    · exact refl c
    · split
      · unfold continueWrite
        simp only
        split <;> exact settleWrite c handle _
      · exact writeNext c handle member

/-- If nobody has come, whoever is there is the one who was there. -/
theorem exists_before (h : TimersKept c c')
    (hlines : ∀ {handle id}, c'.roster.lineOf handle = some id → c.roster.lineOf handle = some id)
    (hget : c'.roster.get? handle = some member) :
    ∃ before, c.roster.get? handle = some before ∧ member.stream.id = before.stream.id ∧
      member.timer = before.timer := by
  obtain ⟨before, hbefore, htimer⟩ := h handle member hget
  have hline := hlines (Roster.lineOf_of_get? hget)
  rw [Roster.lineOf_of_get? hbefore] at hline
  exact ⟨before, hbefore, (Option.some.inj hline).symm, htimer⟩

end TimersKept

theorem Unstirred.timersKept (h : Unstirred c c') : TimersKept c c' := by
  intro handle member' hget
  obtain ⟨member, hmember, -, htimer⟩ := h.members hget
  exact ⟨member, hmember, htimer⟩

/-! ### Connections in small steps -/

/-- Nothing comes in in small steps. -/
theorem Calm.nothingIn {p : Handle → Prop} (h : Calm p c c') : NothingIn c.host c'.host := by
  refine h.induction (motive := fun b => NothingIn c.host b.host) (.refl _) fun hstep hbefore => ?_
  cases hstep with
  | aside _ _ host _ _ => exact hbefore.trans host
  | _ => exact hbefore

/-- Whoever is there after small steps has been there before, over the same connection. -/
theorem Consistent.lineOf_calm {p : Handle → Prop} {id : StreamId} (h : Consistent c)
    (hcalm : Calm p c c') (hline : c'.roster.lineOf handle = some id) :
    c.roster.lineOf handle = some id := by
  have hboth : Consistent c' ∧
      (c'.roster.lineOf handle = some id → c.roster.lineOf handle = some id) := by
    refine hcalm.induction (motive := fun b => Consistent b ∧
      (b.roster.lineOf handle = some id → c.roster.lineOf handle = some id))
      ⟨h, fun hline => hline⟩ fun {a b} hstep hbefore =>
        ⟨hbefore.1.step hstep, fun hafter => hbefore.2 ?_⟩
    cases hstep with
    | aside roster _ _ _ _ => rwa [roster] at hafter
    | adjust handle f _ same =>
        have hlines := @Roster.lineOf_modify a.roster handle f fun member hget =>
          (same member hget).stream
        rwa [← hlines]
    | takeNext handle => rwa [Roster.lineOf_takeNext] at hafter
    | detach handle _ =>
        rw [Roster.lineOf_detach hbefore.1.roster] at hafter
        split at hafter
        · cases hafter
        · exact hafter
  exact hboth.2 hline

/-! ### Tended members -/

/-- From one state to another a member's timer has been started at a given time if the member has
shown a sign of life in between, and runs on if it has not. -/
def Tended (limit : Option Duration) (now : Instant) (c c' : Coordinator) : Prop :=
  ∃ new, c'.host.calls = c.host.calls ++ new ∧
    ∀ handle member', c'.roster.get? handle = some member' →
      (∃ call ∈ new, call.enlivens member'.stream.id = true) ∧ member'.timer = ⟨now, limit⟩ ∨
        (∀ call ∈ new, call.enlivens member'.stream.id = false) ∧
          ∃ member, c.roster.get? handle = some member ∧ member'.stream.id = member.stream.id ∧
            member'.timer = member.timer

namespace Tended

theorem trans (hab : Tended limit now a b) (hbc : Tended limit now b c) : Tended limit now a c := by
  obtain ⟨first, hfirst, hmiddle⟩ := hab
  obtain ⟨second, hsecond, hlast⟩ := hbc
  refine ⟨first ++ second, by rw [hsecond, hfirst, List.append_assoc], fun handle last hget => ?_⟩
  rcases hlast handle last hget with
    ⟨⟨call, hcall, hlives⟩, htimer⟩ | ⟨hsilent, member, hmember, hid, htimer⟩
  · exact .inl ⟨⟨call, List.mem_append_right _ hcall, hlives⟩, htimer⟩
  · rw [hid] at hsilent ⊢
    rcases hmiddle handle member hmember with
      ⟨⟨call, hcall, hlives⟩, hstarted⟩ | ⟨hsilent', member', hmember', hid', htimer'⟩
    · exact .inl ⟨⟨call, List.mem_append_left _ hcall, hlives⟩, htimer.trans hstarted⟩
    · exact .inr ⟨List.forall_mem_append.2 ⟨hsilent', hsilent⟩, member', hmember', hid',
        htimer.trans htimer'⟩

/-- Where nothing comes in, timers run on. -/
theorem quiet (hnothing : NothingIn c.host c'.host)
    (hlines : ∀ {handle id}, c'.roster.lineOf handle = some id → c.roster.lineOf handle = some id)
    (htimers : TimersKept c c') : Tended limit now c c' := by
  obtain ⟨new, hnew, hnothing⟩ := hnothing
  exact ⟨new, hnew, fun handle member' hget => .inr ⟨fun call hcall =>
    Call.not_enlivens_of_not_bringsIn (hnothing call hcall) _, htimers.exists_before hlines hget⟩⟩

theorem of_calm {p : Handle → Prop} (h : Consistent c) (hcalm : Calm p c c')
    (htimers : TimersKept c c') : Tended limit now c c' :=
  quiet hcalm.nothingIn (h.lineOf_calm hcalm) htimers

theorem refl (h : Consistent c) : Tended limit now c c :=
  of_calm (p := nobody) h (.refl c) (.refl c)

theorem dismiss (h : Consistent c) (handle : Handle) (departure : Departure) :
    Tended limit now c (c.dismiss handle departure) :=
  of_calm (p := anyone) h (calm_dismiss c trivial departure)
    (Unstirred.dismiss h handle departure).timersKept

end Tended

/-- All timers have one limit. -/
def Armed (limit : Option Duration) (c : Coordinator) : Prop :=
  ∀ handle member, c.roster.get? handle = some member → member.timer.limit = limit

theorem Tended.armed (h : Tended limit now c c') (harmed : Armed limit c) : Armed limit c' := by
  obtain ⟨_, -, hmembers⟩ := h
  intro handle member' hget
  rcases hmembers handle member' hget with ⟨-, htimer⟩ | ⟨-, member, hmember, -, htimer⟩
  · rw [htimer]
  · rw [htimer]
    exact harmed handle member hmember

/-! ### Accepting -/

theorem tended_welcome (hwf : c.roster.WellFormed) (hdistinct : Distinct c) {id : StreamId}
    {addr : SocketAddr} (haccept : c.host.accept = (.ok (id, addr), host)) (now : Instant) :
    Tended c.config.idleTimeout now c
      (({ c with host := host } : Coordinator).welcome id addr now) := by
  have hget := fun handle member => @Roster.get?_of_enroll c.roster handle member hwf (.ofStream id)
    addr ⟨now, c.config.idleTimeout⟩
  have hwf' := hwf.enroll (.ofStream id) addr ⟨now, c.config.idleTimeout⟩
  -- What comes in is another connection than any that a member has.
  have hold {handle : Handle} {member : Member} (hmember : c.roster.get? handle = some member) :
      id ≠ member.stream.id := ((hdistinct.accept haccept).2.2.2 hmember).1.symm
  obtain ⟨-, ⟨kind, hroster, hcalls⟩ | ⟨hroster, hcalls⟩⟩ := welcome_cases haccept now
  · refine ⟨_, hcalls, fun handle member' hafter => ?_⟩
    rw [hroster] at hafter
    obtain ⟨hne, hbetween⟩ := Roster.get?_of_detach hwf' hafter
    have hmember := ((hget handle member' hbetween).resolve_left fun h => hne h.1).2
    exact .inr ⟨by simpa [Call.enlivens] using hold hmember, member', hmember, rfl, rfl⟩
  · refine ⟨_, hcalls, fun handle member' hafter => ?_⟩
    rw [hroster] at hafter
    rcases hget handle member' hafter with ⟨rfl, rfl⟩ | ⟨-, hmember⟩
    · exact .inl ⟨⟨_, List.mem_cons_self, decide_eq_true rfl⟩, rfl⟩
    · exact .inr ⟨by simpa [Call.enlivens] using hold hmember, member', hmember, rfl, rfl⟩

/-- The timer of a connection that is accepted is started when it is. -/
theorem tended_acceptOne (h : Consistent c) (hdistinct : Distinct c) (now : Instant) :
    Tended c.config.idleTimeout now c (c.acceptOne now).state := by
  have hfailed {kind : IoKind} {next : Host} (heq : c.host.accept = (.error kind, next)) :
      Calm nobody c { c with host := next } :=
    .aside rfl rfl (nothingIn_accept_error heq) (accept_error heq).1.more rfl
  unfold acceptOne
  split
  next => exact .refl h
  next =>
    split
    next heq => exact tended_welcome h.roster hdistinct heq now
    next heq =>
      exact .of_calm h ((hfailed heq).trans (.silent rfl rfl rfl (.refl _) rfl))
        (.of_roster_eq rfl)
    next heq =>
      have hcalm := hfailed heq
      simp only
      split
      · exact .of_calm h (hcalm.trans (calm_note _ _ _)) (.of_roster_eq rfl)
      · exact .of_calm h hcalm (.of_roster_eq rfl)

/-! ### Reading -/

/-- What is read from one member is no sign of life of another. -/
theorem not_enlivens_of_readsFrom (hdistinct : Distinct c)
    (hget : c.roster.get? handle = some member) {member' : Member}
    (hother : c.roster.get? other = some member') (hne : other ≠ handle) {new : List Call}
    (hreads : ∀ call ∈ new, call.readsFrom member.stream.id = true) :
    ∀ call ∈ new, call.enlivens member'.stream.id = false :=
  fun call hcall => Call.not_enlivens_of_readsFrom (hreads call hcall) fun hid =>
    hne (hdistinct.apart hother hget hid)

theorem get?_refilled_of_ne (c : Coordinator) (member : Member) (hne : other ≠ handle) :
    (c.refilled handle member).roster.get? other = c.roster.get? other := by
  rw [(c.refilled_frame handle member).1, Roster.get?_modify, if_neg hne]

/-- A member from which bytes are read has its timer restarted. -/
theorem tended_gather (hdistinct : Distinct c) (harmed : Armed limit c)
    (hget : c.roster.get? handle = some member)
    (hfine : ∀ e, (member.stream.receive c.host).result ≠ .error e) (now : Instant) :
    Tended limit now c (c.gather handle member now).1 := by
  obtain ⟨new, hnew, hreads, hdry, hread⟩ := receive_enlivens member.stream c.host
  refine ⟨new, (c.calls_gather handle member now).trans hnew, fun other member' hafter => ?_⟩
  by_cases hsame : other = handle
  · subst hsame
    have hrefilled : (c.refilled other member).roster.get? other =
        some { member with stream := (member.stream.receive c.host).stream } := by
      rw [(c.refilled_frame other member).1, Roster.get?_modify, if_pos rfl, hget]
      rfl
    have hid := member.stream.id_receive c.host
    unfold gather at hafter
    split at hafter
    next heq => exact absurd heq (hfine _)
    next heq =>
      change ((c.refilled other member).roster.modify other _).get? other = _ at hafter
      rw [Roster.get?_modify, if_pos rfl, hrefilled] at hafter
      cases hafter
      exact .inr ⟨by simpa [hid] using hdry heq, member, hget, hid, rfl⟩
    next heq =>
      change ((c.refilled other member).roster.modify other _).get? other = _ at hafter
      rw [Roster.get?_modify, if_pos rfl, hrefilled] at hafter
      cases hafter
      refine .inl ⟨by simpa [hid] using hread _ heq, ?_⟩
      exact congrArg (Timer.mk now) (harmed other member hget)
  · obtain ⟨slots, hslots⟩ := Bystanding.gather c handle member now other hsame
    rw [hslots] at hafter
    obtain ⟨member', hmember', rfl⟩ := Option.map_eq_some_iff.1 hafter
    exact .inr ⟨not_enlivens_of_readsFrom hdistinct hget hmember' hsame hreads, member', hmember',
      rfl, rfl⟩

/-- A member whose read fails goes, and for the others it is as if nothing had been read. -/
theorem tended_lose (h : Consistent c) (hdistinct : Distinct c)
    (hget : c.roster.get? handle = some member) (departure : Departure) :
    Tended limit now c
      (({ c.refilled handle member with decoded := [] } : Coordinator).dismiss handle
        departure) := by
  obtain ⟨read, hread, hreads⟩ := member.stream.added_receive c.host
  have hcleared := (h.refilled hget).clear
  have hcalm : Calm anyone _
      (({ c.refilled handle member with decoded := [] } : Coordinator).dismiss handle departure) :=
    calm_dismiss _ trivial departure
  obtain ⟨gone, hgone, hnothing⟩ := hcalm.nothingIn
  have hcalls : (c.refilled handle member).host.calls = c.host.calls ++ read :=
    (c.calls_refilled handle member).trans hread
  refine ⟨read ++ gone, by rw [hgone, ← List.append_assoc, ← hcalls],
    fun other member' hafter => ?_⟩
  rw [get?_dismiss hcleared.roster] at hafter
  split at hafter
  next => cases hafter
  next hne =>
    change (c.refilled handle member).roster.get? other = _ at hafter
    rw [get?_refilled_of_ne c member hne] at hafter
    refine .inr ⟨List.forall_mem_append.2 ⟨?_, fun call hcall => ?_⟩, member', hafter, rfl, rfl⟩
    · exact not_enlivens_of_readsFrom hdistinct hget hafter hne hreads
    · exact Call.not_enlivens_of_not_bringsIn (hnothing call hcall) _

/-! ### Serving -/

theorem tended_actOnControl (h : Consistent c) (handle : Handle) (msg : Message) :
    Tended limit now c (c.actOnControl handle msg) :=
  .quiet (.of_calls_eq (calls_actOnControl c handle msg))
    (fun hline => (unmoved_actOnControl h handle msg).lineOf _ ▸ hline)
    (.actOnControl c handle msg)

theorem tended_actOnDecoded (h : Consistent c) (handle : Handle) :
    Tended limit now c (c.actOnDecoded handle) := by
  have hboth : Consistent (c.actOnDecoded handle) ∧ Tended limit now c (c.actOnDecoded handle) :=
    List.foldlRecOn (motive := fun b => Consistent b ∧ Tended limit now c b) _ _
      ⟨h.clear, .quiet (.refl _) (fun hline => hline) (.of_roster_eq rfl)⟩
      fun b hbefore msg _ => ⟨hbefore.1.actOnControl handle msg,
        hbefore.2.trans (tended_actOnControl hbefore.1 handle msg)⟩
  exact hboth.2

/-- A member's turn to write restarts no timer. -/
theorem tended_writeTurn (h : Consistent c) (handle : Handle) :
    Tended limit now c (match c.writeMember handle with
      | (c, none) => c
      | (c, some e) => c.dismiss handle (.channel e)) := by
  have hcalm := calm_writeMember (p := anyone) c handle
  have hwritten : Tended limit now c (c.writeMember handle).1 :=
    .of_calm h hcalm (.writeMember c handle)
  have hconsistent := h.calm hcalm
  rcases hresult : c.writeMember handle with ⟨written, _ | e⟩ <;>
    rw [hresult] at hwritten hconsistent
  · exact hwritten
  · exact hwritten.trans (.dismiss hconsistent handle _)

theorem tended_serveOrDismiss (h : Consistent c) (hdistinct : Distinct c) (harmed : Armed limit c)
    (handle : Handle) : Tended limit now c (serveOrDismiss now c handle) := by
  unfold serveOrDismiss serveMember
  cases hget : c.roster.get? handle with
  | none => exact .refl h
  | some member =>
      simp only
      by_cases hreadable : member.latch.readable = true
      · rw [if_pos hreadable, readMember_eq_gather]
        rcases gather_cases (p := nobody) c handle member now with
          ⟨e, -, hgather⟩ | ⟨hfine, hnone, -⟩
        · rw [hgather]
          exact tended_lose h hdistinct hget (.channel e)
        · have hgathered := h.gather hget now
          rw [hnone]
          exact ((tended_gather hdistinct harmed hget hfine now).trans
            (tended_actOnDecoded hgathered handle)).trans
              (tended_writeTurn (hgathered.actOnDecoded handle) handle)
      · rw [if_neg hreadable]
        exact tended_writeTurn h handle

theorem tended_serveEach (h : Consistent c) (hdistinct : Distinct c) (harmed : Armed limit c)
    (handles : List Handle) : Tended limit now c (handles.foldl (serveOrDismiss now) c) := by
  induction handles generalizing c with
  | nil => exact .refl h
  | cons handle handles ih =>
      have hserved := work_serveOrDismiss now c handle
      have htended : Tended limit now c (serveOrDismiss now c handle) :=
        tended_serveOrDismiss h hdistinct harmed handle
      exact htended.trans (ih (hserved.consistent h) (hserved.distinct h hdistinct)
        (htended.armed harmed))

theorem tended_watched (h : Consistent c) (turn : Turn) :
    Tended limit now c (c.watched turn).state :=
  .of_calm h (calm_watched c turn) (Unstirred.watched h turn).timersKept

/-- **Up to the point where overdue members are dismissed** an iteration restarts the timers of
those that show a sign of life, at its own time, and nobody else's. -/
theorem tended_expiring (h : Consistent c) (hdistinct : Distinct c)
    (harmed : Armed c.config.idleTimeout c) {x : Coordinator} (hx : c.expiring turn = some x) :
    Tended c.config.idleTimeout (c.host.clock.after turn.advance) c x := by
  obtain ⟨w, ready, s, hw, hready, hs, served, hpackets, rfl⟩ := expiring_cases hx
  have hwatched : Tended c.config.idleTimeout ready.host.clock c (c.watched turn).state :=
    tended_watched h turn
  have hconsistent := h.calm (calm_watched c turn)
  rw [hw, Stage.state_going] at hwatched hconsistent
  have hlatched : Tended c.config.idleTimeout ready.host.clock c ready :=
    hwatched.trans (.of_calm (p := nobody) hconsistent (calm_latched hready) (.latched hready))
  have hbefore := work_ready hw hready
  have haccepted := tended_acceptOne (hbefore.consistent h) (hbefore.distinct h hdistinct)
    ready.host.clock
  have hmembers := hbefore.thenQuiet (.single (.accept ready ready.host.clock))
  rw [hbefore.config_eq h, hs, Stage.state_going] at haccepted
  rw [hs, Stage.state_going] at hmembers
  have hserved : Tended c.config.idleTimeout ready.host.clock s
      (s.serveMembers ready.host.clock) :=
    tended_serveEach (hmembers.consistent h) (hmembers.distinct h hdistinct)
      ((hlatched.trans haccepted).armed harmed) s.roster.order
  have hcalm : Calm nobody (s.serveMembers ready.host.clock) (served.elapse turn.lag) := by
    have hserved := calm_servePackets (p := nobody) (s.serveMembers ready.host.clock)
    rw [hpackets] at hserved
    exact hserved.trans (calm_elapse served turn.lag)
  have hroster := roster_servePackets (s.serveMembers ready.host.clock)
  rw [hpackets, Stage.state_going] at hroster
  have hanswered : Tended c.config.idleTimeout ready.host.clock (s.serveMembers ready.host.clock)
      (served.elapse turn.lag) :=
    .of_calm ((hmembers.consistent h).serveEach ready.host.clock s.roster.order) hcalm
      (.of_roster_eq hroster)
  rw [← clock_ready h hw hready]
  exact ((hlatched.trans haccepted).trans hserved).trans hanswered

end Coordinator
end Rendezvous
