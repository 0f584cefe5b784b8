import Rendezvous.Proofs.Coordinator.Introductions
import Rendezvous.Proofs.Coordinator.WakeUp

/-!
# Rendezvous.Proofs.Coordinator.Inbound

**Where announced entries come from.** All connections are read through one shared inbox,
and the handle of a connection that is gone is given to another. Still, what is announced
over a connection is what was read from it. A `History` is a run with all that has come in;
its views say what was read from a stream (`pumps`) and what was announced over it
(`announcedOver`).

* `Sound` ties the history to the state: a member's stream holds what is left over of the
  bytes that it has read, and every entry completed by them has been announced, but for those
  that are `due` in the middle of a turn. A member whose read fails is `spared` until it is
  dismissed.
* `Sound.calm` keeps it through everything but three things, and `Sound.enroll`,
  `Sound.refilled` and `Sound.act` through these.
* `Recorded.iterate` is what follows for an iteration, also for one that fails.
* `History.worked` says that the history is that of the work done, so that its announcements
  are what the roster has been told (`Work.course`). `History.provenance` has both.
-/

namespace Rendezvous
namespace Coordinator

/-! ### Histories -/

/-- The states at the loop's head when the loop is started on a given system, each with the
history of what has come in. -/
inductive History (config : CoordinatorConfig) (host : Host) : Coordinator → List Intake → Prop
  | start {c : Coordinator} (h : Coordinator.start config host = .ok c) : History config host c []
  | iterate {c : Coordinator} {past : List Intake} (turn : Turn)
    (before : History config host c past) (h : (c.iterate turn).failure = none) :
    History config host (c.iterate turn).state (past ++ c.intake turn)

/-! ### Reading a history -/

/-- All reads of a stream, in order. -/
def pumps (id : StreamId) (past : List Intake) : List Pump :=
  past.filterMap fun
    | .read stream pump => if stream = id then some pump else none
    | _ => none

/-- All entries announced over a stream, in order, with the handles that they were announced
under. -/
def announcedOver (id : StreamId) (past : List Intake) : List (Handle × PeerEntry) :=
  (announcements past).filterMap fun made =>
    if made.id = id then some (made.handle, made.entry) else none

/-- What the shared inbox held whenever a turn began. -/
def inboxes (past : List Intake) : List (List Message) :=
  past.filterMap fun
    | .turn inbox => some inbox
    | _ => none

/-- All bytes got in some reads. -/
def allBytes (pumps : List Pump) : Bytes := pumps.flatMap Pump.bytes

/-- The bytes got in those reads that did not fail. -/
def takenIn (pumps : List Pump) : Bytes := allBytes (pumps.filter fun pump => !pump.failed)

/-- The entries that decoded frames announce. -/
def entriesOf (answers : List (Except CodecError Message)) : List PeerEntry :=
  answers.filterMap fun
    | .ok (.connect entry) => some entry
    | _ => none

section Views

variable (id : StreamId) (past more : List Intake)

@[simp] theorem inboxes_append : inboxes (past ++ more) = inboxes past ++ inboxes more :=
  List.filterMap_append

theorem pumps_turn (inbox : List Message) : pumps id (past ++ [.turn inbox]) = pumps id past := by
  simp [pumps]

theorem announcedOver_turn (inbox : List Message) :
    announcedOver id (past ++ [.turn inbox]) = announcedOver id past := by
  simp [announcedOver, announcements]

theorem pumps_act (dispatch : Dispatch) :
    pumps id (past ++ [.act dispatch]) = pumps id past := by
  simp [pumps]

theorem inboxes_act (dispatch : Dispatch) : inboxes (past ++ [.act dispatch]) = inboxes past := by
  simp [inboxes]

theorem announcedOver_act_of_none {dispatch : Dispatch} (h : dispatch.announcement? = none) :
    announcedOver id (past ++ [.act dispatch]) = announcedOver id past := by
  simp [announcedOver, announcements, h]

theorem announcedOver_act {dispatch : Dispatch} {made : Announcement}
    (h : dispatch.announcement? = some made) :
    announcedOver id (past ++ [.act dispatch]) =
      announcedOver id past ++ if id = made.id then [(made.handle, made.entry)] else [] := by
  by_cases hsame : made.id = id
  · simp [announcedOver, announcements, h, hsame]
  · simp [announcedOver, announcements, h, hsame, Ne.symm hsame]

theorem pumps_read (stream : StreamId) (pump : Pump) :
    pumps id (past ++ [.read stream pump]) =
      pumps id past ++ if id = stream then [pump] else [] := by
  by_cases hsame : stream = id
  · simp [pumps, hsame]
  · simp [pumps, hsame, Ne.symm hsame]

theorem announcedOver_read (stream : StreamId) (pump : Pump) :
    announcedOver id (past ++ [.read stream pump]) = announcedOver id past := by
  simp [announcedOver, announcements]

@[simp] theorem allBytes_append (pumps more : List Pump) :
    allBytes (pumps ++ more) = allBytes pumps ++ allBytes more :=
  List.flatMap_append

@[simp] theorem takenIn_append (pumps more : List Pump) :
    takenIn (pumps ++ more) = takenIn pumps ++ takenIn more := by
  rw [takenIn, List.filter_append, allBytes_append]
  rfl

@[simp] theorem entriesOf_append (answers more : List (Except CodecError Message)) :
    entriesOf (answers ++ more) = entriesOf answers ++ entriesOf more :=
  List.filterMap_append

end Views

/-- What is to be announced over a stream when there are messages left to act on. -/
def dueOver (id : StreamId) (msgs : List Message) (other : StreamId) : List PeerEntry :=
  if other = id then entriesOf (msgs.map .ok) else []

@[simp] theorem dueOver_nil (id : StreamId) : dueOver id [] = fun _ => [] := by
  funext other
  simp [dueOver, entriesOf]

/-! ### The invariant -/

/-- The history is that of the state, but for what is due and for who is spared. -/
structure Sound (start : Host) (spared : Handle → Prop) (due : StreamId → List PeerEntry)
    (c : Coordinator) (past : List Intake) : Prop where
  roster : c.roster.WellFormed
  distinct : Distinct c
  inboxes : ∀ inbox ∈ inboxes past, inbox = []
  announced : ∀ id, (announcedOver id past).map Prod.snd ++ due id =
    entriesOf (segment streamCapacity (takenIn (pumps id past))).emitted
  arrived : ∀ id, arrived id c.host.calls = arrived id start.calls ++ allBytes (pumps id past)
  onlyLast : ∀ id, ∀ pump ∈ (pumps id past).dropLast, pump.failed = false
  held : ∀ {handle member}, c.roster.get? handle = some member → ¬ spared handle →
    (∀ pump ∈ pumps member.stream.id past, pump.failed = false) ∧
      member.stream.reassembly =
        .leftOver streamCapacity (takenIn (pumps member.stream.id past))
  own : ∀ {handle member}, c.roster.get? handle = some member →
    ∀ item ∈ announcedOver member.stream.id past, item.1 = handle
  oneHandle : ∀ id, ∃ handle, ∀ item ∈ announcedOver id past, item.1 = handle
  untouched : ∀ id, id ∈ c.host.waiting ∨ c.host.streams.length ≤ id.index →
    pumps id past = [] ∧ announcedOver id past = []

variable {start host : Host} {p spared : Handle → Prop} {due : StreamId → List PeerEntry}
  {c c' : Coordinator} {past : List Intake} {handle : Handle} {member : Member}

namespace Sound

/-- Where nothing comes in, members may go and may change, as long as they stay who they are. -/
theorem frame (h : Sound start spared due c past) (hroster : c'.roster.WellFormed)
    (hmembers : ∀ {handle member'}, c'.roster.get? handle = some member' →
      ∃ member, c.roster.get? handle = some member ∧ member'.stream.id = member.stream.id ∧
        member'.stream.reassembly = member.stream.reassembly)
    (hhost : NothingIn c.host c'.host) (hstreams : MoreStreams c.host c'.host) :
    Sound start spared due c' past where
  roster := hroster
  distinct := h.distinct.mono (fun hafter =>
    let ⟨member, hbefore, hid, _⟩ := hmembers hafter
    ⟨member, hbefore, hid⟩) hstreams
  inboxes := h.inboxes
  announced := h.announced
  arrived := fun id => (hhost.arrived_eq id).trans (h.arrived id)
  onlyLast := h.onlyLast
  held := by
    intro handle member' hafter hspared
    obtain ⟨member, hbefore, hid, hreassembly⟩ := hmembers hafter
    rw [hid, hreassembly]
    exact h.held hbefore hspared
  own := by
    intro handle member' hafter
    obtain ⟨member, hbefore, hid, -⟩ := hmembers hafter
    rw [hid]
    exact h.own hbefore
  oneHandle := h.oneHandle
  untouched := fun id hid => h.untouched id (hstreams.beyond hid)

theorem step (h : Sound start spared due c past) (hstep : Step p c c') :
    Sound start spared due c' past := by
  cases hstep with
  | aside roster _ host streams _ =>
      refine h.frame (roster ▸ h.roster) (fun {handle member'} hafter => ?_) host streams
      exact ⟨member', roster ▸ hafter, rfl, rfl⟩
  | adjust handle f queue same =>
      refine h.frame (h.roster.modify handle queue) (fun hafter => ?_) (.refl _) (.refl _)
      obtain ⟨member, hbefore, ⟨-, rfl⟩ | ⟨rfl, rfl⟩⟩ := get?_of_modifyMember hafter
      · exact ⟨_, hbefore, rfl, rfl⟩
      · exact ⟨member, hbefore, (same member hbefore).stream, (same member hbefore).reassembly⟩
  | takeNext handle =>
      refine h.frame (h.roster.takeNext handle) (fun hafter => ?_) (.refl _) (.refl _)
      obtain ⟨member, hbefore, ⟨-, rfl⟩ | ⟨-, rfl⟩⟩ := Roster.get?_of_takeNext hafter
      · exact ⟨_, hbefore, rfl, rfl⟩
      · exact ⟨member, hbefore, rfl, rfl⟩
  | detach handle =>
      refine h.frame (h.roster.detach handle) (fun {other member'} hafter => ?_) (.refl _)
        (.refl _)
      exact ⟨member', (Roster.get?_of_detach h.roster hafter).2, rfl, rfl⟩

theorem calm (h : Sound start spared due c past) (hcalm : Calm p c c') :
    Sound start spared due c' past :=
  hcalm.induction (motive := fun c => Sound start spared due c past) h
    fun hstep hsound => hsound.step hstep

/-- Who is spared need not be any more once they are gone. -/
theorem unspare (h : Sound start spared due c past)
    (hgone : ∀ handle, spared handle → c.roster.get? handle = none) :
    Sound start (fun _ => False) due c past :=
  { h with
    held := fun hget _ => h.held hget fun hspared =>
      nomatch hget.symm.trans (hgone _ hspared) }

theorem weaken (h : Sound start spared due c past) {spared' : Handle → Prop}
    (himp : ∀ handle, spared handle → spared' handle) : Sound start spared' due c past :=
  { h with held := fun hget hspared => h.held hget (hspared ∘ himp _) }

/-- Whoever is attached comes with a stream that nothing is known of. -/
theorem enroll (h : Sound start (fun _ => False) due c past) {id : StreamId} {addr : SocketAddr}
    (haccept : c.host.accept = (.ok (id, addr), host)) (timer : Timer) :
    Sound start (fun _ => False) due
      { c with host := host, roster := (c.roster.enroll (.ofStream id) addr timer).val.2 }
      past := by
  have hget := fun handle member => @Roster.get?_of_enroll c.roster handle member h.roster
    (.ofStream id) addr timer
  have hwaiting : id ∈ c.host.waiting := by simp [(accept_ok haccept).1]
  obtain ⟨hpumps, hannounced⟩ := h.untouched id (.inl hwaiting)
  have hfresh : (FramedStream.ofStream id).reassembly = .leftOver streamCapacity [] := by
    rw [Reassembly.leftOver, segment_of_headerMissing rfl]
    rfl
  have hstreams := moreStreams_accept haccept
  refine ⟨h.roster.enroll _ addr timer, ?_, h.inboxes, h.announced, ?_, h.onlyLast, ?_, ?_,
    h.oneHandle, ?_⟩
  · refine h.distinct.attach haccept (c.roster.enroll (.ofStream id) addr timer).val.1 ?_ (.refl _)
    intro handle member hafter
    rcases hget handle member hafter with ⟨hnew, rfl⟩ | ⟨-, hbefore⟩
    · exact .inr ⟨hnew, rfl⟩
    · exact .inl hbefore
  · exact fun other => (arrived_accept haccept other).trans (h.arrived other)
  · intro handle member hafter hspared
    rcases hget handle member hafter with ⟨-, rfl⟩ | ⟨-, hbefore⟩
    · change (∀ pump ∈ pumps id past, _) ∧ _ = Reassembly.leftOver _ (takenIn (pumps id past))
      rw [hpumps]
      exact ⟨List.forall_mem_nil _, hfresh⟩
    · exact h.held hbefore hspared
  · intro handle member hafter
    rcases hget handle member hafter with ⟨-, rfl⟩ | ⟨-, hbefore⟩
    · change ∀ item ∈ announcedOver id past, _
      rw [hannounced]
      exact List.forall_mem_nil _
    · exact h.own hbefore
  · exact fun other hother => h.untouched other (hstreams.beyond hother)

theorem acceptOne (h : Sound start (fun _ => False) due c past) (now : Instant) :
    Sound start (fun _ => False) due (c.acceptOne now).state past := by
  rcases acceptOne_cases (p := anyone) c now fun _ _ _ => trivial with
    hcalm | ⟨id, addr, host, haccept, -, hcalm⟩
  · exact h.calm hcalm
  · exact (h.enroll haccept _).calm hcalm

/-- Of the history no more matters than what its views show. -/
theorem congr {past' : List Intake} (h : Sound start spared due c past)
    (hinboxes : ∀ inbox ∈ Coordinator.inboxes past', inbox = [])
    (hpumps : ∀ id, pumps id past' = pumps id past)
    (hannounced : ∀ id, announcedOver id past' = announcedOver id past) :
    Sound start spared due c past' where
  roster := h.roster
  distinct := h.distinct
  inboxes := hinboxes
  announced := by simpa only [hpumps, hannounced] using h.announced
  arrived := by simpa only [hpumps] using h.arrived
  onlyLast := by simpa only [hpumps] using h.onlyLast
  held := by
    intro other member' hget' hspared
    rw [hpumps]
    exact h.held hget' hspared
  own := by
    intro other member' hget'
    rw [hannounced]
    exact h.own hget'
  oneHandle := by simpa only [hannounced] using h.oneHandle
  untouched := by simpa only [hpumps, hannounced] using h.untouched

/-- A turn begins with an empty inbox. -/
theorem turn (h : Sound start spared due c past) :
    Sound start spared due c (past ++ [.turn []]) := by
  refine h.congr (fun inbox hinbox => ?_) (fun _ => pumps_turn ..) fun _ => announcedOver_turn ..
  rw [inboxes_append] at hinbox
  rcases List.mem_append.1 hinbox with hold | hnew
  · exact h.inboxes inbox hold
  · exact List.mem_singleton.1 hnew

/-- A message that announces nothing is acted on. -/
theorem pass {dispatch : Dispatch} (h : Sound start spared due c past)
    (hnone : dispatch.announcement? = none) :
    Sound start spared due c (past ++ [.act dispatch]) :=
  h.congr ((inboxes_act past dispatch).symm ▸ h.inboxes) (fun _ => pumps_act ..)
    fun _ => announcedOver_act_of_none _ _ hnone

/-- The entry of a member that is attached is announced when it is its turn. -/
theorem announce {dispatch : Dispatch} {id : StreamId} {entry : PeerEntry} {msgs : List Message}
    (h : Sound start spared (dueOver id (.connect entry :: msgs)) c past)
    (hget : c.roster.get? handle = some member) (hid : member.stream.id = id)
    (hmade : dispatch.announcement? = some ⟨id, handle, entry⟩) :
    Sound start spared (dueOver id msgs) c (past ++ [.act dispatch]) := by
  subst hid
  have hannounced := fun other => announcedOver_act other past hmade
  have hpumps := fun other => pumps_act other past dispatch
  refine ⟨h.roster, h.distinct, (inboxes_act past dispatch).symm ▸ h.inboxes, ?_, ?_, ?_, ?_, ?_,
    ?_, ?_⟩
  · intro other
    rw [hpumps, hannounced, ← h.announced other]
    by_cases hsame : other = member.stream.id <;> simp [dueOver, hsame, entriesOf]
  · simpa only [hpumps] using h.arrived
  · simpa only [hpumps] using h.onlyLast
  · intro other member' hget' hspared
    rw [hpumps]
    exact h.held hget' hspared
  · intro other member' hget' item hitem
    rw [hannounced] at hitem
    rcases List.mem_append.1 hitem with hold | hnew
    · exact h.own hget' item hold
    · split at hnew
      next hsame =>
        rw [List.mem_singleton.1 hnew]
        exact h.distinct.apart hget hget' hsame.symm
      next => cases hnew
  · intro other
    rw [hannounced]
    by_cases hsame : other = member.stream.id
    · refine ⟨handle, fun item hitem => ?_⟩
      rw [if_pos hsame, hsame] at hitem
      rcases List.mem_append.1 hitem with hold | hnew
      · exact h.own hget item hold
      · rw [List.mem_singleton.1 hnew]
    · rw [if_neg hsame, List.append_nil]
      exact h.oneHandle other
  · intro other hother
    rw [hpumps, hannounced, if_neg (h.distinct.ne_of_untouched hget hother), List.append_nil]
    exact h.untouched other hother

/-- A read of a member's stream, when it is known what is due after it and what the stream
then holds. -/
theorem refilled (h : Sound start (fun _ => False) (fun _ => []) c past)
    (hget : c.roster.get? handle = some member) (failed : Bool)
    (hother : ∀ other, other ≠ member.stream.id → due other = [])
    (hdue : (announcedOver member.stream.id past).map Prod.snd ++ due member.stream.id =
      entriesOf (segment streamCapacity (takenIn
        (pumps member.stream.id past ++ [⟨member.stream.bytesIn c.host, failed⟩]))).emitted)
    (hheld : ¬ spared handle → failed = false ∧
      (member.stream.receive c.host).stream.reassembly = .leftOver streamCapacity (takenIn
        (pumps member.stream.id past ++ [⟨member.stream.bytesIn c.host, failed⟩]))) :
    Sound start spared due (c.refilled handle member)
      (past ++ [.read member.stream.id ⟨member.stream.bytesIn c.host, failed⟩]) := by
  obtain ⟨hroster, -, hcalls, hstreams, -⟩ := c.refilled_frame handle member
  generalize hpump : (⟨member.stream.bytesIn c.host, failed⟩ : Pump) = pump at hdue hheld ⊢
  -- Another member has another stream.
  have hapart : ∀ {other member'}, other ≠ handle → c.roster.get? other = some member' →
      member'.stream.id ≠ member.stream.id :=
    fun hne hother hsame => hne (h.distinct.apart hother hget hsame)
  have hid := member.stream.id_receive c.host
  refine ⟨hroster ▸ h.roster.modify handle fun _ => rfl,
    (kept_refilled hget).toWritesKept.distinct h.distinct, ?_, ?_, ?_, ?_, ?_, ?_, ?_, ?_⟩
  · rw [inboxes_append]
    exact (List.append_nil (Coordinator.inboxes past)).symm ▸ h.inboxes
  · intro other
    rw [pumps_read, announcedOver_read]
    by_cases hsame : other = member.stream.id
    · rw [hsame, if_pos rfl, hdue]
    · rw [if_neg hsame, List.append_nil, hother other hsame]
      exact h.announced other
  · intro other
    rw [hcalls, arrived_receive, h.arrived, pumps_read, allBytes_append, List.append_assoc]
    by_cases hsame : other = member.stream.id
    · simp [hsame, ← hpump, allBytes]
    · simp [hsame, Ne.symm hsame, allBytes]
  · intro other
    rw [pumps_read]
    by_cases hsame : other = member.stream.id
    · rw [hsame, if_pos rfl, List.dropLast_concat]
      exact (h.held hget not_false).1
    · rw [if_neg hsame, List.append_nil]
      exact h.onlyLast other
  · intro other member' hafter hspared
    rcases get?_of_refilled hafter with ⟨rfl, hstream⟩ | ⟨hne, hbefore⟩
    · obtain ⟨hfine, hreassembly⟩ := hheld hspared
      rw [hstream, hid, pumps_read, if_pos rfl]
      refine ⟨fun other hmem => ?_, hreassembly⟩
      rcases List.mem_append.1 hmem with hold | hnew
      · exact (h.held hget not_false).1 other hold
      · rw [List.mem_singleton.1 hnew, ← hpump]
        exact hfine
    · rw [pumps_read, if_neg (hapart hne hbefore), List.append_nil]
      exact h.held hbefore not_false
  · intro other member' hafter
    rw [announcedOver_read]
    rcases get?_of_refilled hafter with ⟨rfl, hstream⟩ | ⟨-, hbefore⟩
    · rw [hstream, hid]
      exact h.own hget
    · exact h.own hbefore
  · intro other
    rw [announcedOver_read]
    exact h.oneHandle other
  · intro other hout
    rw [hstreams.waiting, hstreams.count] at hout
    rw [pumps_read, announcedOver_read, if_neg (h.distinct.ne_of_untouched hget hout),
      List.append_nil]
    exact h.untouched other hout

/-- A read that does not fail leaves the frames due that it completes. -/
theorem read_ok (h : Sound start (fun _ => False) (fun _ => []) c past)
    (hget : c.roster.get? handle = some member)
    (hfine : ∀ e, (member.stream.receive c.host).result ≠ .error e) :
    Sound start (fun _ => False) (dueOver member.stream.id (member.stream.receive c.host).frames)
      (c.refilled handle member)
      (past ++ [.read member.stream.id ⟨member.stream.bytesIn c.host, false⟩]) := by
  obtain ⟨hreassembly, hemitted⟩ := (FramedStream.receive_leftOver
    (h.held hget not_false).2 c.host).resolve_left fun ⟨e, he⟩ => hfine e he
  have htaken : takenIn (pumps member.stream.id past ++
      [⟨member.stream.bytesIn c.host, false⟩]) =
        takenIn (pumps member.stream.id past) ++ member.stream.bytesIn c.host := by
    rw [takenIn_append]
    simp [takenIn, allBytes]
  have hannounced := h.announced member.stream.id
  rw [List.append_nil] at hannounced
  refine h.refilled hget false (fun other hne => if_neg hne) ?_ fun _ => ⟨rfl, ?_⟩
  · rw [htaken, hemitted, entriesOf_append, hannounced]
    exact congrArg _ (if_pos rfl)
  · rw [htaken]
    exact hreassembly

/-- A read that fails leaves nothing due. -/
theorem read_failed (h : Sound start (fun _ => False) (fun _ => []) c past)
    (hget : c.roster.get? handle = some member) :
    Sound start (fun other => other = handle) (fun _ => []) (c.refilled handle member)
      (past ++ [.read member.stream.id ⟨member.stream.bytesIn c.host, true⟩]) := by
  refine h.refilled hget true (fun _ _ => rfl) ?_ fun hspared => absurd rfl hspared
  rw [takenIn_append]
  simpa [takenIn, allBytes] using h.announced member.stream.id

/-- Acting on a message changes nobody's stream. -/
theorem acted (h : Sound start spared due c past) (handle : Handle) (msg : Message) :
    Sound start spared due (c.actOnControl handle msg) past := by
  obtain ⟨-, hcalls, hstreams, -⟩ := c.actOnControl_frame handle msg
  refine h.frame ?_ (fun {other _} hafter => ?_) (.of_calls_eq hcalls) hstreams.more
  · rw [roster_actOnControl]
    split
    · exact h.roster.introduce handle _
    · exact h.roster
  · obtain ⟨entries, slots, hslots⟩ := c.get?_actOnControl handle msg other
    rw [hslots] at hafter
    obtain ⟨before, hbefore, rfl⟩ := Option.map_eq_some_iff.1 hafter
    exact ⟨before, hbefore, rfl, rfl⟩

/-- Acting on a message announces the entry that it brings. -/
theorem act {id : StreamId} {msg : Message} {msgs : List Message}
    (h : Sound start spared (dueOver id (msg :: msgs)) c past)
    (hget : c.roster.get? handle = some member) (hid : member.stream.id = id) :
    Sound start spared (dueOver id msgs) (c.actOnControl handle msg)
      (past ++ [.act ⟨c, handle, msg⟩]) := by
  have hacted := h.acted handle msg
  cases msg with
  | connect entry =>
      obtain ⟨entries, slots, hslots⟩ := c.get?_actOnControl handle (.connect entry) handle
      rw [hget] at hslots
      exact hacted.announce hslots hid (by simp [Dispatch.announcement?, hget, hid])
  | _ => exact hacted.pass (by simp [Dispatch.announcement?, hget])

theorem actAll {id : StreamId} {msgs : List Message}
    (h : Sound start spared (dueOver id msgs) c past)
    (hget : c.roster.get? handle = some member) (hid : member.stream.id = id) :
    Sound start spared (fun _ => [])
      (msgs.foldl (fun c msg => c.actOnControl handle msg) c)
      (past ++ actIntake handle c msgs) := by
  induction msgs generalizing c past member with
  | nil => simpa [actIntake] using h
  | cons msg msgs ih =>
      obtain ⟨entries, slots, hslots⟩ := c.get?_actOnControl handle msg handle
      rw [hget] at hslots
      rw [actIntake, List.append_cons]
      exact ih (h.act hget hid) hslots hid

end Sound

/-! ### One iteration -/

/-- The history is that of the state, and the shared inbox is empty. -/
structure Recorded (start : Host) (c : Coordinator) (past : List Intake) : Prop where
  sound : Sound start (fun _ => False) (fun _ => []) c past
  decoded : c.decoded = []

theorem Recorded.calm (h : Recorded start c past) (hcalm : Calm p c c') : Recorded start c' past :=
  ⟨h.sound.calm hcalm, hcalm.decoded_eq.trans h.decoded⟩

theorem decoded_actAll (handle : Handle) (c : Coordinator) (msgs : List Message) :
    (msgs.foldl (fun c msg => c.actOnControl handle msg) c).decoded = c.decoded :=
  List.foldlRecOn (motive := fun c' : Coordinator => c'.decoded = c.decoded) _ _ rfl
    fun _ h msg _ => (actOnControl_frame _ handle msg).1.trans h

/-- Only the host and the roster matter. -/
theorem Sound.clear (h : Sound start spared due c past) :
    Sound start spared due { c with decoded := [] } past :=
  h.frame h.roster (fun hafter => ⟨_, hafter, rfl, rfl⟩) (.refl _) (.refl _)

/-- A member is read, and all that was read is acted on; if that fails, nothing is. -/
theorem Recorded.readMember (h : Recorded start c past)
    (hget : c.roster.get? handle = some member) (now : Instant) :
    Sound start (fun other => other = handle ∧ (c.readMember handle member now).2 ≠ none)
        (fun _ => []) (c.readMember handle member now).1
        (past ++ c.readIntake handle member now) ∧
      (c.readMember handle member now).1.decoded = [] := by
  obtain ⟨-, hdecoded, -⟩ := c.refilled_frame handle member
  rw [h.decoded, List.nil_append] at hdecoded
  rw [readMember_eq_gather, readIntake]
  rcases gather_cases (p := nobody) c handle member now with ⟨e, -, hgather⟩ | ⟨hfine, hnone, hcalm⟩
  · rw [hgather]
    refine ⟨?_, rfl⟩
    exact (h.sound.read_failed hget).clear.weaken fun _ hsame => ⟨hsame, Option.some_ne_none e⟩
  · obtain ⟨member', hget', hid⟩ := get?_gather hget now
    rcases hgather : c.gather handle member now with ⟨gathered, failure⟩
    rw [hgather] at hnone hcalm hget'
    obtain rfl : failure = none := hnone
    have hread := ((h.sound.read_ok hget hfine).calm hcalm).clear
    rw [← hdecoded, ← hcalm.decoded_eq] at hread
    refine ⟨?_, decoded_actAll handle { gathered with decoded := [] } gathered.decoded⟩
    have hacted := hread.actAll hget' hid
    rw [List.append_assoc] at hacted
    exact hacted.weaken fun _ => False.elim

theorem Recorded.serveMember (h : Recorded start c past) (handle : Handle) (now : Instant) :
    Sound start (fun other => other = handle ∧ (c.serveMember handle now).2 ≠ none)
        (fun _ => []) (c.serveMember handle now).1 (past ++ c.turnIntake now handle) ∧
      (c.serveMember handle now).1.decoded = [] := by
  have hturn : Recorded start c (past ++ [.turn []]) := ⟨h.sound.turn, h.decoded⟩
  unfold Coordinator.serveMember turnIntake
  rw [h.decoded]
  cases hget : c.roster.get? handle with
  | none => exact ⟨hturn.sound.weaken nofun, h.decoded⟩
  | some member =>
      simp only
      split
      next =>
        have hread := hturn.readMember hget now
        rw [List.append_cons]
        rcases hresult : c.readMember handle member now with ⟨read, _ | e⟩
        · rw [hresult] at hread
          have hsound := hread.1.unspare fun _ hspared => absurd rfl hspared.2
          exact ⟨(hsound.calm (calm_writeMember (p := nobody) read handle)).weaken nofun,
            (calm_writeMember (p := nobody) read handle).decoded_eq.trans hread.2⟩
        · rw [hresult] at hread
          exact hread
      next =>
        have hwritten := hturn.calm (calm_writeMember (p := nobody) c handle)
        exact ⟨hwritten.sound.weaken nofun, hwritten.decoded⟩

/-- Whoever's read failed is dismissed at once. -/
theorem Recorded.serveOrDismiss (h : Recorded start c past) (now : Instant) (handle : Handle) :
    Recorded start (serveOrDismiss now c handle) (past ++ c.turnIntake now handle) := by
  obtain ⟨hserved, hdecoded⟩ := h.serveMember handle now
  unfold Coordinator.serveOrDismiss
  rcases hresult : c.serveMember handle now with ⟨served, _ | e⟩
  · rw [hresult] at hserved hdecoded
    exact ⟨hserved.unspare fun _ hspared => absurd rfl hspared.2, hdecoded⟩
  · rw [hresult] at hserved hdecoded
    have hcalm : Calm anyone served (served.dismiss handle (.channel e)) :=
      calm_dismiss served trivial (.channel e)
    refine ⟨(hserved.calm hcalm).unspare ?_, hcalm.decoded_eq.trans hdecoded⟩
    rintro other ⟨rfl, -⟩
    rw [get?_dismiss hserved.roster, if_pos rfl]

theorem Recorded.serveEach (h : Recorded start c past) (now : Instant) (handles : List Handle) :
    Recorded start (handles.foldl (Coordinator.serveOrDismiss now) c)
      (past ++ c.turnsIntake now handles) := by
  induction handles generalizing c past with
  | nil => exact (List.append_nil past).symm ▸ h
  | cons handle handles ih =>
      rw [turnsIntake, ← List.append_assoc]
      exact ih (h.serveOrDismiss now handle)

/-- An iteration is recorded, even if it fails. -/
theorem Recorded.iterate (h : Recorded start c past) (turn : Turn) :
    Recorded start (c.iterate turn).state (past ++ c.intake turn) := by
  rcases c.serving_cases turn with
    ⟨hserving, hcalm⟩ | ⟨w, ready, s, hwatched, hready, haccept, hserving, hrest⟩
  · rw [intake, hserving, List.append_nil]
    exact h.calm hcalm
  · have hcalm := calm_watched c turn
    rw [hwatched] at hcalm
    have hready := h.calm (hcalm.trans (calm_latched hready))
    have hs : Recorded start s past := by
      have hsound := hready.sound.acceptOne ready.host.clock
      rw [haccept] at hsound
      refine ⟨hsound, ?_⟩
      have hdecoded := decoded_acceptOne ready ready.host.clock
      rw [haccept] at hdecoded
      exact hdecoded.trans hready.decoded
    have hserved : Recorded start (s.serveMembers ready.host.clock)
        (past ++ s.turnsIntake ready.host.clock s.roster.order) :=
      hs.serveEach ready.host.clock s.roster.order
    rw [intake, hserving, hrest]
    exact hserved.calm (calm_finish _ _ _)

/-! ### Whole runs -/

theorem recorded_start {config : CoordinatorConfig} (horderly : host.Orderly)
    (h : Coordinator.start config host = .ok c) : Recorded host c [] := by
  obtain ⟨hroster, -, -, hcalls⟩ := start_ok h
  have hnobody := get?_start h
  refine ⟨⟨hroster ▸ Roster.wellFormed_empty, .start horderly h, nofun, ?_, ?_, nofun, ?_, ?_,
    fun id => ⟨⟨0⟩, nofun⟩, fun id _ => ⟨rfl, rfl⟩⟩, (start_empty h).1⟩
  · intro id
    rw [show takenIn (pumps id []) = [] from rfl, segment_of_headerMissing rfl]
    rfl
  · intro id
    rw [hcalls, arrived_append]
    rfl
  · intro handle member hget
    simp [hnobody] at hget
  · intro handle member hget
    simp [hnobody] at hget

theorem History.recorded {config : CoordinatorConfig} (horderly : host.Orderly)
    (h : History config host c past) : Recorded host c past := by
  induction h with
  | start h => exact recorded_start horderly h
  | iterate turn _ _ ih => exact ih.iterate turn

/-- The history is that of the work that the run consists of. -/
theorem History.worked {config : CoordinatorConfig} (h : History config host c past) :
    Worked config host c (acted past) := by
  induction h with
  | start h => exact .start h
  | iterate turn _ hgoing ih =>
      rw [acted_append]
      exact ih.iterate turn hgoing

/-- What comes in over a connection goes where it belongs. -/
structure Provenance (config : CoordinatorConfig) (start : Host) (c : Coordinator)
    (past : List Intake) : Prop where
  /-- The announcements of the history are what the roster has been told, one after the other,
  and it has been told nothing else. -/
  introduced : ∃ first, Coordinator.start config start = .ok first ∧
    Course first (announcements past) c
  /-- The shared inbox is empty whenever a member's turn begins. -/
  inboxes : ∀ inbox ∈ inboxes past, inbox = []
  /-- The reads of a stream got the bytes that the trace has for it. -/
  arrived : ∀ id, arrived id c.host.calls = arrived id start.calls ++ allBytes (pumps id past)
  /-- No read of a stream comes after one that failed. -/
  onlyLast : ∀ id, ∀ pump ∈ (pumps id past).dropLast, pump.failed = false
  /-- What is announced over a connection is, in order, what the frames announce that are cut
  from the bytes read from its own stream, without those got in a read that failed. -/
  announced : ∀ id, (announcedOver id past).map Prod.snd =
    entriesOf (segment streamCapacity (takenIn (pumps id past))).emitted
  /-- So it is only frames completed by the bytes of a failing read that are left out. -/
  leftOut : ∀ id, (segment streamCapacity (takenIn (pumps id past))).emitted <+:
    (segment streamCapacity (allBytes (pumps id past))).emitted
  /-- All entries of a connection are announced under one handle. -/
  oneHandle : ∀ id, ∃ handle, ∀ item ∈ announcedOver id past, item.1 = handle
  /-- For whoever is attached, this is the present handle, and nothing has been left out. -/
  attached : ∀ handle member, c.roster.get? handle = some member →
    (∀ item ∈ announcedOver member.stream.id past, item.1 = handle) ∧
      (announcedOver member.stream.id past).map Prod.snd =
        entriesOf (segment streamCapacity (allBytes (pumps member.stream.id past))).emitted

theorem takenIn_eq {pumps : List Pump} (h : ∀ pump ∈ pumps, pump.failed = false) :
    takenIn pumps = allBytes pumps := by
  rw [takenIn, List.filter_eq_self.2 fun pump hpump => by rw [h pump hpump]; rfl]

/-- What was got in reads that did not fail comes first. -/
theorem takenIn_prefix {pumps : List Pump} (h : ∀ pump ∈ pumps.dropLast, pump.failed = false) :
    takenIn pumps <+: allBytes pumps := by
  rcases List.eq_nil_or_concat pumps with rfl | ⟨first, last, rfl⟩
  · exact List.prefix_rfl
  · rw [List.concat_eq_append, List.dropLast_concat] at h
    rw [List.concat_eq_append, takenIn_append, allBytes_append, takenIn_eq h,
      List.prefix_append_right_inj]
    cases hlast : last.failed <;> simp [takenIn, allBytes, hlast]

theorem provenance_of_recorded {config : CoordinatorConfig} {first : Coordinator}
    (hstart : Coordinator.start config start = .ok first) (hwork : Work first (acted past) c)
    (h : Recorded start c past) : Provenance config start c past := by
  have hannounced (id : StreamId) : (announcedOver id past).map Prod.snd =
      entriesOf (segment streamCapacity (takenIn (pumps id past))).emitted := by
    rw [← h.sound.announced id, List.append_nil]
  refine ⟨⟨first, hstart, hwork.course (consistent_start hstart)⟩, h.sound.inboxes,
    h.sound.arrived, h.sound.onlyLast, hannounced, fun id => ?_, h.sound.oneHandle,
    fun handle member hget => ⟨h.sound.own hget, ?_⟩⟩
  · obtain ⟨late, hlate⟩ := takenIn_prefix (h.sound.onlyLast id)
    rw [← hlate, emitted_append]
    exact List.prefix_append ..
  · rw [hannounced, takenIn_eq (h.sound.held hget not_false).1]

/-- **Announcements come from their own connection.** What the roster is told of, in any run of
the loop, is what the bytes of each connection announce. This holds at every loop head, and still
after an iteration that fails. -/
theorem History.provenance {config : CoordinatorConfig} (horderly : host.Orderly)
    (h : History config host c past) :
    Provenance config host c past ∧
      ∀ turn, Provenance config host (c.iterate turn).state (past ++ c.intake turn) := by
  obtain ⟨first, hstart, hwork⟩ := h.worked.exists_work
  have hrecorded := h.recorded horderly
  refine ⟨provenance_of_recorded hstart hwork hrecorded, fun turn => ?_⟩
  refine provenance_of_recorded hstart ?_ (hrecorded.iterate turn)
  rw [acted_append]
  exact hwork.trans (work_iterate c turn)

/-- The first peer announces itself once more, and then sends a frame of no known kind. -/
def garbledTurn : Turn :=
  { Observed.quietTurn with
    supply := ⟨[], [(⟨0⟩, ⟨[.data (Observed.announcementFrame ++
      [0x54, 0x45, 0x4e, 0x54, 0, 0, 0, 9, 99])], []⟩)], [], [], [], [], []⟩ }

/-- The second peer announces itself. -/
def successorTurn : Turn :=
  { Observed.announcementTurn with
    supply := ⟨[], [(⟨1⟩, ⟨[.data Observed.announcementFrame], []⟩)], [], [], [], [], []⟩ }

/-- A peer announces itself twice, but the second time in a read that fails; then another
comes in its place and announces itself. -/
theorem provenance_after_garbage :
    ∃ c past, History .default .idle c past ∧ Provenance .default .idle c past ∧
      (pumps ⟨0⟩ past).map Pump.failed = [false, true] ∧
        announcedOver ⟨0⟩ past =
          [(⟨0⟩, ⟨⟨.ofOctets 203 0 113 9, 5000⟩, ⟨.ofOctets 10 0 0 2, 6000⟩⟩)] ∧
        announcedOver ⟨1⟩ past = announcedOver ⟨0⟩ past := by
  have horderly : Host.idle.Orderly := ⟨by decide, by decide⟩
  have hstart := @History.start .default .idle _ rfl
  have hannounced := (hstart.iterate Observed.arrivalTurn (by decide +kernel)).iterate
    Observed.announcementTurn (by decide +kernel)
  have hgarbled := (hannounced.iterate garbledTurn (by decide +kernel)).iterate
    Observed.arrivalTurn (by decide +kernel)
  have hrun := hgarbled.iterate successorTurn (by decide +kernel)
  exact ⟨_, _, hrun, (History.provenance horderly hrun).1, by decide +kernel, by decide +kernel,
    by decide +kernel⟩

end Coordinator
end Rendezvous
