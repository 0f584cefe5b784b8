import Rendezvous.Proofs.Coordinator.Observed
import Rendezvous.Proofs.Coordinator.Queues

/-!
# Rendezvous.Proofs.Coordinator.Stages

**What each stage of a coordinator's loop does to its sources.** Most stages leave
every write side alone. The others come in a few kinds, and each function of the loop
is of one kind:

* `WritesKept` and `Kept` leave all write sides alone, and `Kept` the read sides too;
* `Wrote` writes to one member, and `Sent` to the packet socket;
* `WatchedMember` has one member watched for what it needs;
* `Attached` may attach one connection.

`Reads` says of all of them that readiness for reading is forgotten only when reading
would block. `Distinct` is why a call about one stream concerns one member only.
-/

namespace Rendezvous
namespace Coordinator

/-! ### Stages that disturb no write side -/

/-- Between two states of a coordinator no write side has been disturbed, and nobody has
been attached; members may have gone. -/
structure WritesKept (c c' : Coordinator) : Prop where
  roster : c.roster.WellFormed → c'.roster.WellFormed
  members : ∀ {handle member'}, c'.roster.get? handle = some member' →
    ∃ member, c.roster.get? handle = some member ∧ member'.stream.id = member.stream.id ∧
      (c.memberSight member).Kept (c'.memberSight member')
  packets : c.packetSight.Kept c'.packetSight
  streams : SameStreams c.host c'.host

/-- Moreover, no readiness for reading has been forgotten. -/
structure Kept (c c' : Coordinator) : Prop extends WritesKept c c' where
  listener : c.listenerLatch = true → c'.listenerLatch = true
  packetReads : c.packetLatch.readable = true → c'.packetLatch.readable = true
  memberReads : ∀ {handle member member'}, c.roster.get? handle = some member →
    c'.roster.get? handle = some member' → member.latch.readable = true →
      member'.latch.readable = true

theorem WritesKept.trans {a b c : Coordinator} (hab : WritesKept a b) (hbc : WritesKept b c) :
    WritesKept a c where
  roster := hbc.roster ∘ hab.roster
  members := by
    intro handle last hlast
    obtain ⟨middle, hmiddle, hstream, hkept⟩ := hbc.members hlast
    obtain ⟨first, hfirst, hstream', hkept'⟩ := hab.members hmiddle
    exact ⟨first, hfirst, hstream.trans hstream', hkept'.trans hkept⟩
  packets := hab.packets.trans hbc.packets
  streams := hab.streams.trans hbc.streams

theorem Kept.trans {a b c : Coordinator} (hab : Kept a b) (hbc : Kept b c) : Kept a c where
  toWritesKept := hab.toWritesKept.trans hbc.toWritesKept
  listener := hbc.listener ∘ hab.listener
  packetReads := hbc.packetReads ∘ hab.packetReads
  memberReads := by
    intro handle first last hfirst hlast hread
    obtain ⟨middle, hmiddle, -⟩ := hbc.members hlast
    exact hbc.memberReads hmiddle hlast (hab.memberReads hfirst hmiddle hread)

/-- What a stage may do to a member without disturbing its write side. -/
structure MemberKept (member member' : Member) : Prop where
  stream : member'.stream.id = member.stream.id
  writable : member.latch.writable = true → member'.latch.writable = true
  watch : member'.watch = member.watch
  output : member.hasOutput = true → member'.hasOutput = true

theorem MemberKept.refl (member : Member) : MemberKept member member := ⟨rfl, id, rfl, id⟩

/-- Traffic and changes to members that disturb none of them. -/
theorem WritesKept.of_exchange {c c' : Coordinator}
    (hroster : c.roster.WellFormed → c'.roster.WellFormed)
    (hmembers : ∀ {handle member'}, c'.roster.get? handle = some member' →
      ∃ member, c.roster.get? handle = some member ∧ MemberKept member member')
    (hlatch : c.packetLatch.writable = true → c'.packetLatch.writable = true)
    (hwatch : c'.packetWatch = c.packetWatch) (houtbox : c.outbox <+: c'.outbox)
    (hexchange : Exchange c.host c'.host) (hstreams : SameStreams c.host c'.host) :
    WritesKept c c' where
  roster := hroster
  members := by
    intro handle member' hget
    obtain ⟨member, hmember, hkept⟩ := hmembers hget
    refine ⟨member, hmember, hkept.stream, hkept.writable, hkept.watch, ?_, hkept.output⟩
    show registration (.stream member'.stream.id) _ = registration (.stream member.stream.id) _
    rw [hkept.stream, hexchange.registration]
  packets := by
    refine ⟨hlatch, hwatch, hexchange.registration .packetSocket, ?_⟩
    simp only [packetSight, Bool.not_eq_true']
    exact isEmpty_eq_false_mono houtbox
  streams := hstreams

/-- Traffic that touches no member, with nothing forgotten. -/
theorem Kept.of_roster_eq {c c' : Coordinator} (hroster : c'.roster = c.roster)
    (hlistener : c.listenerLatch = true → c'.listenerLatch = true)
    (hreadable : c.packetLatch.readable = true → c'.packetLatch.readable = true)
    (hwritable : c.packetLatch.writable = true → c'.packetLatch.writable = true)
    (hwatch : c'.packetWatch = c.packetWatch) (houtbox : c.outbox <+: c'.outbox)
    (hexchange : Exchange c.host c'.host) (hstreams : SameStreams c.host c'.host) : Kept c c' where
  toWritesKept := by
    refine .of_exchange ?_ ?_ hwritable hwatch houtbox hexchange hstreams
    · exact fun hwf => hroster ▸ hwf
    · intro handle member hget
      rw [hroster] at hget
      exact ⟨member, hget, .refl member⟩
  listener := hlistener
  packetReads := hreadable
  memberReads := by
    intro handle member member' hget hget' hread
    rw [hroster, hget] at hget'
    cases hget'
    exact hread

/-- Two states that differ at most in logs, counters and memory. -/
structure Alike (c c' : Coordinator) : Prop where
  roster : c'.roster = c.roster
  calls : c'.host.calls = c.host.calls
  streams : SameStreams c.host c'.host
  listenerLatch : c'.listenerLatch = c.listenerLatch
  packetLatch : c'.packetLatch = c.packetLatch
  packetWatch : c'.packetWatch = c.packetWatch
  outbox : c'.outbox = c.outbox

theorem Alike.refl (c : Coordinator) : Alike c c := ⟨rfl, rfl, .refl _, rfl, rfl, rfl, rfl⟩

theorem Alike.trans {a b c : Coordinator} (hab : Alike a b) (hbc : Alike b c) : Alike a c where
  roster := hbc.roster.trans hab.roster
  calls := hbc.calls.trans hab.calls
  streams := hab.streams.trans hbc.streams
  listenerLatch := hbc.listenerLatch.trans hab.listenerLatch
  packetLatch := hbc.packetLatch.trans hab.packetLatch
  packetWatch := hbc.packetWatch.trans hab.packetWatch
  outbox := hbc.outbox.trans hab.outbox

theorem Alike.kept {c c' : Coordinator} (h : Alike c c') : Kept c c' := by
  refine .of_roster_eq h.roster ?_ ?_ ?_ h.packetWatch ?_ (.of_calls_eq h.calls) h.streams
  · exact fun hset => h.listenerLatch.trans hset
  · exact fun hset => h.packetLatch ▸ hset
  · exact fun hset => h.packetLatch ▸ hset
  · exact h.outbox ▸ List.prefix_rfl

theorem Kept.refl (c : Coordinator) : Kept c c := (Alike.refl c).kept

theorem alike_note (c : Coordinator) (level : Level) (text : String) :
    Alike c (c.note level text) :=
  ⟨rfl, rfl, ⟨rfl, rfl⟩, rfl, rfl, rfl, rfl⟩

theorem alike_write (c : Coordinator) (log : Log) : Alike c (c.write log) :=
  ⟨rfl, rfl, ⟨rfl, rfl⟩, rfl, rfl, rfl, rfl⟩

/-- What is done one by one disturbs nothing if no piece does. -/
theorem Kept.foldl {α : Type} {step : Coordinator → α → Coordinator}
    (hstep : ∀ c x, Kept c (step c x)) (c : Coordinator) (xs : List α) :
    Kept c (xs.foldl step c) := by
  induction xs generalizing c with
  | nil => exact .refl c
  | cons x xs ih => exact (hstep c x).trans (ih _)

theorem get?_of_modifyMember {c : Coordinator} {handle other : Handle} {f : Member → Member}
    {member' : Member} (hget : (c.modifyMember handle f).roster.get? other = some member') :
    ∃ member, c.roster.get? other = some member ∧
      ((other ≠ handle ∧ member' = member) ∨ (other = handle ∧ member' = f member)) :=
  Roster.get?_of_modify hget

theorem writesKept_modifyMember (c : Coordinator) (handle : Handle) {f : Member → Member}
    (hqueue : ∀ member, (f member).queue = member.queue)
    (hf : ∀ member, c.roster.get? handle = some member → MemberKept member (f member)) :
    WritesKept c (c.modifyMember handle f) := by
  refine .of_exchange (fun h => h.modify handle hqueue) ?_ id rfl List.prefix_rfl (.refl _)
    (.refl _)
  intro other member' hget
  obtain ⟨member, hmember, ⟨-, rfl⟩ | ⟨rfl, rfl⟩⟩ := get?_of_modifyMember hget
  · exact ⟨member', hmember, .refl member'⟩
  · exact ⟨member, hmember, hf member hmember⟩

/-- Changing a member without disturbing it, or its read side, disturbs nothing. -/
theorem kept_modifyMember (c : Coordinator) (handle : Handle) {f : Member → Member}
    (hqueue : ∀ member, (f member).queue = member.queue)
    (hf : ∀ member, c.roster.get? handle = some member → MemberKept member (f member))
    (hread : ∀ member, member.latch.readable = true → (f member).latch.readable = true) :
    Kept c (c.modifyMember handle f) := by
  refine ⟨writesKept_modifyMember c handle hqueue hf, id, id, ?_⟩
  intro other member member' hget hget' hlatch
  obtain ⟨before, hbefore, ⟨-, rfl⟩ | ⟨rfl, rfl⟩⟩ := get?_of_modifyMember hget'
  · rw [hget] at hbefore
    cases hbefore
    exact hlatch
  · rw [hget] at hbefore
    cases hbefore
    exact hread member hlatch

/-! ### Reading -/

/-- An announcement only lengthens queues. -/
theorem kept_introduce (c : Coordinator) (handle : Handle) (entry : PeerEntry) :
    Kept c { c with roster := (c.roster.introduce handle entry).val.2 } := by
  have hbefore : ∀ {other member'},
      (c.roster.introduce handle entry).val.2.get? other = some member' →
      ∃ member slots, c.roster.get? other = some member ∧
        ∃ entry, member' = { member with entry := entry, queue := member.queue ++ slots } := by
    intro other member' hget
    obtain ⟨entries, slots, hslots⟩ := c.roster.get?_introduce handle entry other
    rw [hslots] at hget
    obtain ⟨member, hmember, rfl⟩ := Option.map_eq_some_iff.1 hget
    exact ⟨member, slots, hmember, entries member, rfl⟩
  refine ⟨.of_exchange (fun h => h.introduce handle entry) ?_ id rfl List.prefix_rfl (.refl _)
    (.refl _), id, id, ?_⟩
  · intro other member' hget
    obtain ⟨member, slots, hmember, entry, rfl⟩ := hbefore hget
    refine ⟨member, hmember, rfl, id, rfl, ?_⟩
    simp only [Member.hasOutput, Bool.or_eq_true, Bool.not_eq_true']
    exact Or.imp_left (isEmpty_eq_false_mono (List.prefix_append ..))
  · intro other member member' hget hget' hread
    obtain ⟨member'', slots, hmember, entry, rfl⟩ := hbefore hget'
    rw [hget] at hmember
    cases hmember
    exact hread

theorem kept_actOnControl (c : Coordinator) (handle : Handle) (msg : Message) :
    Kept c (c.actOnControl handle msg) := by
  unfold actOnControl
  split
  · exact .refl c
  · next member hget =>
    cases msg with
    | connect entry =>
        simp only
        have hnoted := alike_note c .debug s!"Received {Message.connect entry} from {member.addr}"
        have hintroduced := hnoted.kept.trans (kept_introduce _ handle entry)
        have hwritten :=
          hintroduced.trans (alike_write _ (c.roster.introduce handle entry).log).kept
        split
        · exact hwritten
        · refine hwritten.trans (Alike.kept ?_)
          exact ⟨rfl, rfl, ⟨rfl, rfl⟩, rfl, rfl, rfl, rfl⟩
    | _ => exact ((alike_note c _ _).trans (alike_note _ _ _)).kept

theorem kept_actOnDecoded (c : Coordinator) (handle : Handle) :
    Kept c (c.actOnDecoded handle) := by
  have hclear : Alike c { c with decoded := [] } := ⟨rfl, rfl, ⟨rfl, rfl⟩, rfl, rfl, rfl, rfl⟩
  exact hclear.kept.trans (.foldl (fun c msg => kept_actOnControl c handle msg) _ c.decoded)

theorem alike_countSkipped (c : Coordinator) (addr : SocketAddr) (skipped : Nat) :
    Alike c (c.countSkipped addr skipped) := by
  unfold countSkipped
  split
  · exact .refl c
  · exact ⟨rfl, rfl, ⟨rfl, rfl⟩, rfl, rfl, rfl, rfl⟩

@[simp] theorem calls_actOnControl (c : Coordinator) (handle : Handle) (msg : Message) :
    (c.actOnControl handle msg).host.calls = c.host.calls := by
  unfold actOnControl
  split
  · rfl
  · cases msg with
    | connect entry => simp only; split <;> rfl
    | _ => rfl

@[simp] theorem calls_actOnDecoded (c : Coordinator) (handle : Handle) :
    (c.actOnDecoded handle).host.calls = c.host.calls := by
  have hfold : ∀ (msgs : List Message) (c : Coordinator),
      (msgs.foldl (fun c msg => c.actOnControl handle msg) c).host.calls = c.host.calls := by
    intro msgs
    induction msgs with
    | nil => exact fun _ => rfl
    | cons msg msgs ih => exact fun c => (ih _).trans (calls_actOnControl c handle msg)
  exact hfold c.decoded _

/-- What a stage may do to the read sides: forget readiness of one only when reading
would block, with the call that said so as its last one. -/
structure Reads (c c' : Coordinator) : Prop where
  listener : c.listenerLatch = true → c'.listenerLatch = false →
    endsDeclined .accept c.host.calls c'.host.calls = true
  packets : c.packetLatch.readable = true → c'.packetLatch.readable = false →
    endsDeclined .receive c.host.calls c'.host.calls = true
  members : ∀ {handle member member'}, c.roster.get? handle = some member →
    c'.roster.get? handle = some member' → member.latch.readable = true →
      member'.latch.readable = false →
        endsDeclined (.read member.stream.id) c.host.calls c'.host.calls = true

theorem Kept.reads {c c' : Coordinator} (h : Kept c c') : Reads c c' where
  listener := fun hset hclear => by simp [h.listener hset] at hclear
  packets := fun hset hclear => by simp [h.packetReads hset] at hclear
  members := fun hget hget' hset hclear => by simp [h.memberReads hget hget' hset] at hclear

/-- No readiness for reading is forgotten as long as the latches stay as they are. -/
theorem Reads.of_latches {c c' : Coordinator} (hlistener : c'.listenerLatch = c.listenerLatch)
    (hpackets : c'.packetLatch.readable = c.packetLatch.readable)
    (hmembers : ∀ {handle member member'}, c.roster.get? handle = some member →
      c'.roster.get? handle = some member' → member'.latch.readable = member.latch.readable) :
    Reads c c' where
  listener := fun hset hclear => by simp [hlistener, hset] at hclear
  packets := fun hset hclear => by simp [hpackets, hset] at hclear
  members := fun hget hget' hset hclear => by simp [hmembers hget hget', hset] at hclear

theorem Reads.of_roster_eq {c c' : Coordinator} (hroster : c'.roster = c.roster)
    (hlistener : c'.listenerLatch = c.listenerLatch)
    (hpackets : c'.packetLatch.readable = c.packetLatch.readable) : Reads c c' := by
  refine .of_latches hlistener hpackets ?_
  intro handle member member' hget hget'
  rw [hroster, hget] at hget'
  cases hget'
  rfl

/-- A coordinator that has read from a member and not acted on it. -/
def refilled (c : Coordinator) (handle : Handle) (member : Member) : Coordinator :=
  let received := member.stream.receive c.host
  let c := { c with host := received.host, decoded := c.decoded ++ received.frames }
  (c.modifyMember handle fun member => { member with stream := received.stream }).countSkipped
    member.addr (received.stream.skipped - member.stream.skipped)

theorem kept_refilled {c : Coordinator} {handle : Handle} {member : Member}
    (hget : c.roster.get? handle = some member) : Kept c (c.refilled handle member) := by
  have hread : Kept c { c with
      host := (member.stream.receive c.host).host
      decoded := c.decoded ++ (member.stream.receive c.host).frames } :=
    .of_roster_eq rfl id id id rfl List.prefix_rfl (member.stream.exchange_receive c.host)
      (sameStreams_receive member.stream c.host)
  refine hread.trans (.trans ?_ (alike_countSkipped _ _ _).kept)
  refine kept_modifyMember _ handle (fun _ => rfl) ?_ (fun _ h => h)
  intro other hother
  rw [show c.roster.get? handle = some other from hother] at hget
  cases hget
  exact ⟨member.stream.id_receive c.host, id, rfl, fun hout => by
    simpa [Member.hasOutput, FramedStream.hasInFlight] using hout⟩

theorem calls_refilled (c : Coordinator) (handle : Handle) (member : Member) :
    (c.refilled handle member).host.calls = (member.stream.receive c.host).host.calls :=
  (alike_countSkipped _ _ _).calls

theorem readMember_eq (c : Coordinator) (handle : Handle) (member : Member) (now : Instant) :
    c.readMember handle member now =
      match (member.stream.receive c.host).result with
      | .error e => ({ c.refilled handle member with decoded := [] }, some e)
      | .ok .dry =>
        (((c.refilled handle member).modifyMember handle fun member =>
          { member with latch := member.latch.withoutRead }).actOnDecoded handle, none)
      | .ok (.read count) =>
        ((((c.refilled handle member).note .trace
          s!"Read {count} bytes from {member.addr}").modifyMember handle
            fun member => { member with timer := member.timer.restart now }).actOnDecoded handle,
          none) := by
  unfold readMember
  rfl

/-- Reading a member disturbs no write side, and forgets that the member is readable only
when reading it would block. -/
theorem readMember_kept {c : Coordinator} {handle : Handle} {member : Member}
    (hget : c.roster.get? handle = some member) (now : Instant) :
    WritesKept c (c.readMember handle member now).1 ∧
      Reads c (c.readMember handle member now).1 := by
  have hrefilled := kept_refilled hget
  rw [readMember_eq]
  split
  next =>
    have hclear : Alike (c.refilled handle member)
        { c.refilled handle member with decoded := [] } :=
      ⟨rfl, rfl, ⟨rfl, rfl⟩, rfl, rfl, rfl, rfl⟩
    have hkept := hrefilled.trans hclear.kept
    exact ⟨hkept.toWritesKept, hkept.reads⟩
  next hdry =>
    have hclear := writesKept_modifyMember (c.refilled handle member) handle
      (f := fun member => { member with latch := member.latch.withoutRead }) (fun _ => rfl)
      (fun _ _ => ⟨rfl, id, rfl, id⟩)
    have hact := kept_actOnDecoded ((c.refilled handle member).modifyMember handle fun member =>
      { member with latch := member.latch.withoutRead }) handle
    refine ⟨(hrefilled.toWritesKept.trans hclear).trans hact.toWritesKept, ?_, ?_, ?_⟩
    · exact fun hset hcleared =>
        absurd ((hact.listener (hrefilled.listener hset)).symm.trans hcleared) (by decide)
    · exact fun hset hcleared =>
        absurd ((hact.packetReads (hrefilled.packetReads hset)).symm.trans hcleared) (by decide)
    · -- Only the member that was read can have lost its latch, and the read was the last call.
      intro other before last hbefore hlast hset hcleared
      obtain ⟨middle, hmiddle, -⟩ := hact.members hlast
      obtain ⟨early, hearly, ⟨-, rfl⟩ | ⟨rfl, rfl⟩⟩ := get?_of_modifyMember hmiddle
      · have hread := hact.memberReads hmiddle hlast (hrefilled.memberReads hbefore hearly hset)
        exact absurd (hread.symm.trans hcleared) (by decide)
      · rw [hget] at hbefore
        cases hbefore
        have hends := endsDeclined_of_endsIn (FramedStream.receive_dry hdry) rfl
        rw [← calls_refilled c other member] at hends
        rwa [calls_actOnDecoded]
  next count hread =>
    have htouch : ∀ c : Coordinator, Kept c (c.modifyMember handle fun member =>
        { member with timer := member.timer.restart now }) := fun c =>
      kept_modifyMember c handle (fun _ => rfl) (fun member _ => ⟨rfl, id, rfl, id⟩) (fun _ h => h)
    have hkept := ((hrefilled.trans (alike_note _ .trace
      s!"Read {count} bytes from {member.addr}").kept).trans (htouch _)).trans
        (kept_actOnDecoded _ handle)
    exact ⟨hkept.toWritesKept, hkept.reads⟩

/-! ### Writing -/

/-- A stage that writes to one member and disturbs nobody else. -/
structure Wrote (handle : Handle) (c c' : Coordinator) : Prop where
  roster : c'.roster.WellFormed
  members : ∀ {other member'}, c'.roster.get? other = some member' →
    ∃ member, c.roster.get? other = some member ∧ member'.stream.id = member.stream.id ∧
      ((c.memberSight member).Kept (c'.memberSight member') ∨
        (other = handle ∧
          (c.memberSight member).Written (.write member.stream.id) (c'.memberSight member')))
  packets : c.packetSight.Kept c'.packetSight
  streams : SameStreams c.host c'.host
  reads : Reads c c'

theorem Kept.wrote {c c' : Coordinator} (h : Kept c c') (hwf : c.roster.WellFormed)
    (handle : Handle) : Wrote handle c c' where
  roster := h.roster hwf
  members := fun hget =>
    let ⟨member, hmember, hstream, hkept⟩ := h.members hget
    ⟨member, hmember, hstream, .inl hkept⟩
  packets := h.packets
  streams := h.streams
  reads := h.reads

theorem Wrote.alike {handle : Handle} {a b c : Coordinator} (hab : Wrote handle a b)
    (hbc : Alike b c) : Wrote handle a c where
  roster := by rw [hbc.roster]; exact hab.roster
  members := by
    intro other member' hget
    rw [hbc.roster] at hget
    have hsight : c.memberSight member' = b.memberSight member' := by
      simp [memberSight, hbc.calls]
    rw [hsight]
    exact hab.members hget
  packets := hab.packets.trans hbc.kept.packets
  streams := hab.streams.trans hbc.streams
  reads := by
    refine ⟨?_, ?_, ?_⟩
    · rw [hbc.listenerLatch, hbc.calls]
      exact hab.reads.listener
    · rw [hbc.packetLatch, hbc.calls]
      exact hab.reads.packets
    · rw [hbc.roster, hbc.calls]
      exact hab.reads.members

/-- Where a member comes from that is there after a write has been settled. The one
written to loses its latch only if the write would block. -/
theorem get?_of_settleWrite {c : Coordinator} {handle other : Handle}
    {written : FramedStream.Written} {member' : Member}
    (hafter : (c.settleWrite handle written).roster.get? other = some member') :
    (other ≠ handle ∧ c.roster.get? other = some member') ∨
      (other = handle ∧ ∃ member, c.roster.get? other = some member ∧
        member'.stream = written.stream ∧ member'.watch = member.watch ∧
          member'.latch.readable = member.latch.readable ∧
            (member'.latch.writable = member.latch.writable ∨ written.result = .ok .waiting)) := by
  unfold settleWrite at hafter
  simp only at hafter
  split at hafter
  next hresult =>
    obtain ⟨stored, hstored, hcleared⟩ := get?_of_modifyMember hafter
    obtain ⟨member, hmember, hmoved⟩ := get?_of_modifyMember hstored
    rcases hcleared with ⟨hne, rfl⟩ | ⟨hsame, rfl⟩
    · obtain rfl := (hmoved.resolve_right fun h => hne h.1).2
      exact .inl ⟨hne, hmember⟩
    · obtain rfl := (hmoved.resolve_left fun h => h.1 hsame).2
      exact .inr ⟨hsame, member, hmember, rfl, rfl, rfl, .inr hresult⟩
  next =>
    obtain ⟨member, hmember, ⟨hne, rfl⟩ | ⟨hsame, rfl⟩⟩ := get?_of_modifyMember hafter
    · exact .inl ⟨hne, hmember⟩
    · exact .inr ⟨hsame, member, hmember, rfl, rfl, rfl, .inl rfl⟩

theorem settleWrite_frame (c : Coordinator) (handle : Handle) (written : FramedStream.Written) :
    (c.roster.WellFormed → (c.settleWrite handle written).roster.WellFormed) ∧
      (c.settleWrite handle written).host = written.host ∧
        (c.settleWrite handle written).listenerLatch = c.listenerLatch ∧
          (c.settleWrite handle written).packetLatch = c.packetLatch ∧
            (c.settleWrite handle written).packetWatch = c.packetWatch ∧
              (c.settleWrite handle written).outbox = c.outbox := by
  unfold settleWrite
  simp only
  split
  · refine ⟨fun h => ?_, rfl, rfl, rfl, rfl, rfl⟩
    have hstored := h.modify handle (f := fun member => { member with stream := written.stream })
      fun _ => rfl
    exact hstored.modify handle
      (f := fun member => { member with latch := member.latch.withoutWrite }) fun _ => rfl
  · refine ⟨fun h => ?_, rfl, rfl, rfl, rfl, rfl⟩
    exact h.modify handle (f := fun member => { member with stream := written.stream }) fun _ => rfl

section

variable {c : Coordinator} {handle : Handle} {member : Member} {roster : Roster}
  {queue : Member → List Handle} {written : FramedStream.Written}

/-- What was taken from the queue of the member written to is of no account. -/
theorem get?_of_settleWrite_taken (hget : c.roster.get? handle = some member)
    (hroster : ∀ other, roster.get? other =
      if other = handle then
        (c.roster.get? other).map fun member => { member with queue := queue member }
      else c.roster.get? other)
    {scratch : Scratch} {other : Handle} {member' : Member}
    (hafter : (({ c with roster := roster, scratch := scratch } : Coordinator).settleWrite handle
      written).roster.get? other = some member') :
    (other ≠ handle ∧ c.roster.get? other = some member') ∨
      (other = handle ∧ member'.stream = written.stream ∧ member'.watch = member.watch ∧
        member'.latch.readable = member.latch.readable ∧
          (member'.latch.writable = member.latch.writable ∨ written.result = .ok .waiting)) := by
  rcases get?_of_settleWrite hafter with ⟨hne, hother⟩ | ⟨rfl, taken, htaken, hrest⟩
  · left
    rw [hroster, if_neg hne] at hother
    exact ⟨hne, hother⟩
  · right
    rw [hroster, if_pos rfl, hget] at htaken
    cases htaken
    exact ⟨rfl, hrest⟩

/-- Settling a write to a member, from whose queue something may have been taken for it. -/
theorem wrote_settleWrite (hget : c.roster.get? handle = some member)
    (hlatch : member.latch.writable = true) (scratch : Scratch) (hwf : roster.WellFormed)
    (hroster : ∀ other, roster.get? other =
      if other = handle then
        (c.roster.get? other).map fun member => { member with queue := queue member }
      else c.roster.get? other)
    (hstream : written.stream.id = member.stream.id)
    (hexchange : Exchange c.host written.host) (hstreams : SameStreams c.host written.host)
    (hwaiting : written.result = .ok .waiting →
      ∃ offered, EndsIn (.write member.stream.id offered (.error .wouldBlock)) c.host
        written.host) :
    Wrote handle c (({ c with roster := roster, scratch := scratch } : Coordinator).settleWrite
      handle written) := by
  obtain ⟨hroster', hhost, hlistener, hpackets, hwatch, houtbox⟩ := settleWrite_frame
    ({ c with roster := roster, scratch := scratch } : Coordinator) handle written
  refine ⟨hroster' hwf, ?_, ?_, by rw [hhost]; exact hstreams, ?_⟩
  · intro other member' hafter
    rcases get?_of_settleWrite_taken hget hroster hafter with
      ⟨hne, hother⟩ | ⟨rfl, hmoved, hwatch', -, hwritable⟩
    · refine ⟨member', hother, rfl, .inl ⟨id, rfl, ?_, id⟩⟩
      simp only [memberSight, hhost]
      exact hexchange.registration _
    · refine ⟨member, hget, by rw [hmoved, hstream], .inr ⟨rfl, hlatch, hwatch', ?_, ?_⟩⟩
      · simp only [memberSight, hhost, hmoved, hstream]
        exact hexchange.registration _
      · -- The latch was set, so it has been lost, and that only because the write would block.
        intro hclear _
        have hlost : member'.latch.writable ≠ member.latch.writable := fun hsame =>
          absurd (hclear.symm.trans (hsame.trans hlatch)) (by decide)
        obtain ⟨offered, hends⟩ := hwaiting (hwritable.resolve_left hlost)
        simp only [memberSight, hhost]
        exact endsDeclined_of_endsIn hends rfl
  · refine ⟨?_, hwatch, ?_, ?_⟩
    · simp [packetSight, hpackets]
    · simp only [packetSight, hhost]
      exact hexchange.registration _
    · simp [packetSight, houtbox]
  · refine .of_latches hlistener (by rw [hpackets]) ?_
    intro other before after hget' hafter
    rcases get?_of_settleWrite_taken hget hroster hafter with
      ⟨-, hother⟩ | ⟨rfl, -, -, hreadable, -⟩
    · rw [hget'] at hother
      cases hother
      rfl
    · rw [hget] at hget'
      cases hget'
      exact hreadable

end

theorem alike_countSent (c : Coordinator) (msg : Message) (addr : SocketAddr) :
    Alike c (c.countSent msg addr) := by
  unfold countSent
  simp only
  split <;> exact ⟨rfl, rfl, ⟨rfl, rfl⟩, rfl, rfl, rfl, rfl⟩

/-- Writing a member's next message: readiness is forgotten only for a full stream or an
empty queue. -/
theorem wrote_writeNext {c : Coordinator} {handle : Handle} {member : Member}
    (hwf : c.roster.WellFormed) (hget : c.roster.get? handle = some member)
    (hlatch : member.latch.writable = true) (hflight : member.stream.hasInFlight = false) :
    Wrote handle c (c.writeNext handle member).1 := by
  unfold writeNext
  cases hqueue : member.queue with
  | nil =>
      -- Nothing is written and the latch is cleared, which does no harm: there is no output.
      rw [Roster.takeNext_of_nil hget hqueue]
      refine ⟨?_, ?_, .refl _, .refl _, ?_⟩
      · exact hwf.modify handle
          (f := fun member => { member with latch := member.latch.withoutWrite }) fun _ => rfl
      · intro other member' hafter
        obtain ⟨before, hbefore, ⟨-, rfl⟩ | ⟨rfl, rfl⟩⟩ := get?_of_modifyMember hafter
        · exact ⟨member', hbefore, rfl, .inl (.refl _)⟩
        · obtain rfl : member = before := Option.some.inj (hget.symm.trans hbefore)
          have hidle : member.hasOutput = false := by simp [Member.hasOutput, hqueue, hflight]
          exact ⟨member, hbefore, rfl, .inr ⟨rfl, hlatch, rfl, rfl, fun _ hout =>
            absurd (hidle.symm.trans hout) (by decide)⟩⟩
      · refine .of_latches rfl rfl ?_
        intro other before after hbefore hafter
        obtain ⟨early, hearly, hchange⟩ := get?_of_modifyMember hafter
        obtain rfl : before = early := Option.some.inj (hbefore.symm.trans hearly)
        rcases hchange with ⟨-, rfl⟩ | ⟨rfl, rfl⟩ <;> rfl
  | cons slot rest =>
      have hslot : slot ∈ member.queue := by simp [hqueue]
      obtain ⟨msg, hmsg⟩ := hwf.live hget hslot
      have htaken := Roster.takeNext_of_cons hget hqueue
      rw [hmsg] at htaken
      have hnext := Roster.get?_takeNext c.roster handle
      have hwf' := hwf.takeNext handle
      rw [htaken] at hnext hwf' ⊢
      simp only
      have hwrote := wrote_settleWrite hget hlatch
        (member.stream.transmit msg c.scratch c.host).2 hwf' hnext
        (member.stream.id_transmit msg c.scratch c.host)
        (member.stream.exchange_transmit msg c.scratch c.host)
        (sameStreams_transmit member.stream msg c.scratch c.host)
        FramedStream.transmit_waiting
      split
      · exact hwrote
      · exact hwrote.alike (alike_countSent _ _ _)

/-- Writing to a member disturbs nobody else. -/
theorem wrote_writeMember {c : Coordinator} (hwf : c.roster.WellFormed) (handle : Handle) :
    Wrote handle c (c.writeMember handle).1 := by
  unfold writeMember
  split
  next => exact (Kept.refl c).wrote hwf handle
  next member hget =>
    by_cases hlatch : member.latch.writable = true
    · simp only [hlatch, Bool.not_true, Bool.false_eq_true, if_false]
      by_cases hflight : member.stream.hasInFlight = true
      · rw [if_pos hflight]
        -- The rest of a frame is written; nothing is taken from the queue for it.
        have hsame : ∀ other, c.roster.get? other =
            if other = handle then
              (c.roster.get? other).map fun member => { member with queue := member.queue }
            else c.roster.get? other := by
          intro other
          split <;> simp
        have hwrote := wrote_settleWrite hget hlatch c.scratch hwf hsame
          (member.stream.id_resume c.host) (member.stream.exchange_resume c.host)
          (sameStreams_resume member.stream c.host) FramedStream.resume_waiting
        unfold continueWrite
        simp only
        split <;> exact hwrote
      · rw [if_neg hflight]
        exact wrote_writeNext hwf hget hlatch (by simpa using hflight)
    · simp only [hlatch, Bool.not_false, if_true]
      exact (Kept.refl c).wrote hwf handle

/-! ### Dismissing -/

/-- Every stream has one holder: a member, or the store of connections to be accepted. -/
structure Distinct (c : Coordinator) : Prop where
  store : c.host.Orderly
  known : ∀ {handle member}, c.roster.get? handle = some member →
    member.stream.id.index < c.host.streams.length
  attached : ∀ {handle member}, c.roster.get? handle = some member →
    member.stream.id ∉ c.host.waiting
  apart : ∀ {handle other member member'}, c.roster.get? handle = some member →
    c.roster.get? other = some member' → member.stream.id = member'.stream.id → handle = other

/-- A stream that nobody has been given is no member's. -/
theorem Distinct.ne_of_untouched {c : Coordinator} {handle : Handle} {member : Member}
    (h : Distinct c) (hget : c.roster.get? handle = some member) {id : StreamId}
    (hid : id ∈ c.host.waiting ∨ c.host.streams.length ≤ id.index) : id ≠ member.stream.id := by
  rintro rfl
  rcases hid with hwaiting | hlength
  · exact h.attached hget hwaiting
  · exact absurd (h.known hget) (Nat.not_lt.2 hlength)

/-- As long as nobody is attached, streams stay distinct: one that has just come into being
has a number that no member's stream has. -/
theorem Distinct.mono {c c' : Coordinator} (h : Distinct c)
    (hmembers : ∀ {handle member'}, c'.roster.get? handle = some member' →
      ∃ member, c.roster.get? handle = some member ∧ member'.stream.id = member.stream.id)
    (hstreams : MoreStreams c.host c'.host) : Distinct c' where
  store := hstreams.orderly h.store
  known := by
    intro handle member' hget
    obtain ⟨member, hmember, hstream⟩ := hmembers hget
    rw [hstream]
    exact Nat.lt_of_lt_of_le (h.known hmember) hstreams.count
  attached := by
    intro handle member' hget hmem
    obtain ⟨member, hmember, hstream⟩ := hmembers hget
    rw [hstream] at hmem
    rcases hstreams.waiting _ hmem with hmem | hmem
    · exact h.attached hmember hmem
    · exact absurd (h.known hmember) (Nat.not_lt.2 hmem)
  apart := by
    intro handle other member' member'' hget hget' heq
    obtain ⟨member, hmember, hstream⟩ := hmembers hget
    obtain ⟨before, hbefore, hstream'⟩ := hmembers hget'
    exact h.apart hmember hbefore (hstream.symm.trans (heq.trans hstream'))

theorem WritesKept.distinct {c c' : Coordinator} (hkept : WritesKept c c') (h : Distinct c) :
    Distinct c' :=
  h.mono (fun hget => let ⟨member, hmember, hstream, _⟩ := hkept.members hget
    ⟨member, hmember, hstream⟩) hkept.streams.more

theorem Wrote.distinct {c c' : Coordinator} {handle : Handle} (hwrote : Wrote handle c c')
    (h : Distinct c) : Distinct c' :=
  h.mono (fun hget => let ⟨member, hmember, hstream, _⟩ := hwrote.members hget
    ⟨member, hmember, hstream⟩) hwrote.streams.more

theorem dismiss_of_absent {c : Coordinator} {handle : Handle}
    (hget : c.roster.get? handle = none) (departure : Departure) :
    c.dismiss handle departure = c := by
  unfold dismiss
  rw [Roster.detach_of_absent hget]

/-- The trace of a dismissal: the poller is told, and the stream is closed. -/
theorem dismiss_frame {c : Coordinator} {handle : Handle} {member : Member}
    (hget : c.roster.get? handle = some member) (departure : Departure) :
    (c.dismiss handle departure).roster = (c.roster.detach handle).2 ∧
      (∃ failure, (c.dismiss handle departure).host.calls =
        c.host.calls ++ [.deregister (.stream member.stream.id) failure] ++
          [.close member.stream.id]) ∧
        SameStreams c.host (c.dismiss handle departure).host ∧
          (c.dismiss handle departure).listenerLatch = c.listenerLatch ∧
            (c.dismiss handle departure).packetLatch = c.packetLatch ∧
              (c.dismiss handle departure).packetWatch = c.packetWatch ∧
                (c.dismiss handle departure).outbox = c.outbox := by
  obtain ⟨hmember, -, -⟩ := Roster.detach_of_get? hget
  unfold dismiss
  rcases hdetach : c.roster.detach handle with ⟨removed, roster⟩
  rw [hdetach] at hmember
  cases hmember
  have hcalls := c.host.calls_deregister (.stream member.stream.id)
  have hsame : SameStreams c.host (c.host.deregister (.stream member.stream.id)).2 := ⟨rfl, rfl⟩
  rcases hanswer : c.host.deregister (.stream member.stream.id) with ⟨failure, host⟩
  rw [hanswer] at hcalls hsame
  simp only [hanswer]
  refine ⟨rfl, ⟨failure, ?_⟩, ?_, rfl, rfl, rfl, rfl⟩
  · cases failure with
    | none => exact congrArg (· ++ [Call.close member.stream.id]) hcalls
    | some kind => exact congrArg (· ++ [Call.close member.stream.id]) hcalls
  · cases failure with
    | none => exact ⟨hsame.waiting, hsame.count⟩
    | some kind => exact ⟨hsame.waiting, hsame.count⟩

theorem get?_dismiss {c : Coordinator} (hwf : c.roster.WellFormed) (handle other : Handle)
    (departure : Departure) :
    (c.dismiss handle departure).roster.get? other =
      if other = handle then none else c.roster.get? other := by
  cases hget : c.roster.get? handle with
  | none =>
      rw [dismiss_of_absent hget]
      by_cases hsame : other = handle <;> simp [hsame, hget]
  | some member => rw [(dismiss_frame hget departure).1, Roster.get?_detach hwf]

@[simp] theorem outbox_dismiss (c : Coordinator) (handle : Handle) (departure : Departure) :
    (c.dismiss handle departure).outbox = c.outbox := by
  cases hget : c.roster.get? handle with
  | none => rw [dismiss_of_absent hget]
  | some member =>
      obtain ⟨-, -, -, -, -, -, houtbox⟩ := dismiss_frame hget departure
      exact houtbox

/-- Dismissing a member disturbs nobody else, since nobody else has its stream. -/
theorem kept_dismiss {c : Coordinator} (hwf : c.roster.WellFormed) (hdistinct : Distinct c)
    (handle : Handle) (departure : Departure) : Kept c (c.dismiss handle departure) := by
  cases hget : c.roster.get? handle with
  | none =>
      rw [dismiss_of_absent hget]
      exact .refl c
  | some member =>
      obtain ⟨hroster, ⟨failure, hcalls⟩, hstreams, hlistener, hlatch, hwatch, -⟩ :=
        dismiss_frame hget departure
      have hregistration : ∀ source, source ≠ .stream member.stream.id →
          registration source (c.dismiss handle departure).host.calls =
            registration source c.host.calls := by
        intro source hne
        rw [hcalls, registration_snoc, registration_snoc]
        cases failure <;> simp [Call.register?, hne.symm]
      have hbefore : ∀ {other member'},
          (c.dismiss handle departure).roster.get? other = some member' →
          other ≠ handle ∧ c.roster.get? other = some member' := fun hafter =>
        Roster.get?_of_detach hwf (hroster ▸ hafter)
      refine ⟨⟨fun _ => hroster ▸ hwf.detach handle, ?_, ?_, hstreams⟩, ?_, ?_, ?_⟩
      · intro other member' hafter
        obtain ⟨hne, hother⟩ := hbefore hafter
        -- What was closed and forgotten is the stream of the one dismissed alone.
        refine ⟨member', hother, rfl, id, rfl, ?_, id⟩
        refine hregistration _ fun heq => hne (hdistinct.apart hother hget ?_)
        simpa using heq
      · exact ⟨by simp [packetSight, hlatch], hwatch, hregistration _ (by simp),
          by simp [packetSight]⟩
      · exact fun hset => hlistener.trans hset
      · exact fun hset => hlatch ▸ hset
      · intro other before after hother hafter hread
        rw [(hbefore hafter).2] at hother
        cases hother
        exact hread

/-! ### Watching -/

theorem watchPackets_reads (c : Coordinator) : Reads c c.watchPackets.state := by
  unfold watchPackets
  simp only
  split
  · exact (Kept.refl c).reads
  · split <;> exact .of_roster_eq rfl rfl rfl

/-- A stage that has the packet socket watched for what it needs. -/
theorem watchPackets_going {c : Coordinator} (h : c.watchPackets.failure = none) :
    c.packetSight.Rewatched tokenOfPackets c.watchPackets.state.packetSight ∧
      c.watchPackets.state.roster = c.roster ∧
        (∀ member, (c.memberSight member).Kept (c.watchPackets.state.memberSight member)) ∧
          SameStreams c.host c.watchPackets.state.host := by
  unfold watchPackets at h ⊢
  simp only at h ⊢
  by_cases hsame : Interest.onDemand (!c.outbox.isEmpty) = c.packetWatch
  · rw [if_pos hsame]
    exact ⟨⟨rfl, rfl, hsame.symm, (if_pos rfl).symm⟩, rfl, fun _ => .refl _, .refl _⟩
  · rw [if_neg hsame] at h ⊢
    split at h
    next => cases h
    next host heq =>
      refine ⟨⟨rfl, rfl, rfl, ?_⟩, rfl, fun member => ⟨id, rfl, ?_, id⟩, sameStreams_reregister heq⟩
      · simp [packetSight, registration_reregister heq, hsame]
      · simp [memberSight, registration_reregister heq]

/-- A stage that has one member watched for what it needs, unless the poller refuses. -/
structure WatchedMember (handle : Handle) (c c' : Coordinator) (refused : Prop) : Prop where
  roster : c'.roster.WellFormed
  others : ∀ {other}, other ≠ handle → c'.roster.get? other = c.roster.get? other
  othersKept : ∀ {other member}, other ≠ handle → c.roster.get? other = some member →
    (c.memberSight member).Kept (c'.memberSight member)
  member : ∀ {member'}, c'.roster.get? handle = some member' →
    ∃ member, c.roster.get? handle = some member ∧ member'.stream = member.stream ∧
      member'.latch = member.latch ∧
        ((c.memberSight member).Rewatched (tokenOfMember handle) (c'.memberSight member') ∨
          (refused ∧ (c.memberSight member).Kept (c'.memberSight member')))
  packets : c.packetSight.Kept c'.packetSight
  packetsOutput : c'.outbox = c.outbox
  streams : SameStreams c.host c'.host
  listenerLatch : c'.listenerLatch = c.listenerLatch
  packetLatch : c'.packetLatch = c.packetLatch

theorem WatchedMember.distinct {handle : Handle} {c c' : Coordinator} {refused : Prop}
    (h : WatchedMember handle c c' refused) (hdistinct : Distinct c) : Distinct c' := by
  refine hdistinct.mono ?_ h.streams.more
  intro other member' hafter
  by_cases hsame : other = handle
  · subst hsame
    obtain ⟨member, hbefore, hstream, -, -⟩ := h.member hafter
    exact ⟨member, hbefore, by rw [hstream]⟩
  · exact ⟨member', (h.others hsame).symm.trans hafter, rfl⟩

theorem WatchedMember.reads {handle : Handle} {c c' : Coordinator} {refused : Prop}
    (h : WatchedMember handle c c' refused) : Reads c c' := by
  refine .of_latches h.listenerLatch (by rw [h.packetLatch]) ?_
  intro other before after hbefore hafter
  by_cases hsame : other = handle
  · subst hsame
    obtain ⟨member, hmember, -, hlatch, -⟩ := h.member hafter
    obtain rfl : before = member := Option.some.inj (hbefore.symm.trans hmember)
    rw [hlatch]
  · rw [h.others hsame, hbefore] at hafter
    cases hafter
    rfl

/-- Whoever is watched for what it needs already is left alone. -/
theorem WatchedMember.refl {c : Coordinator} (hwf : c.roster.WellFormed) {handle : Handle}
    {refused : Prop} (hfitted : ∀ {member}, c.roster.get? handle = some member →
      member.watch = .onDemand member.hasOutput) : WatchedMember handle c c refused :=
  ⟨hwf, fun _ => rfl, fun _ _ => .refl _,
    fun hget => ⟨_, hget, rfl, rfl, .inl ⟨rfl, rfl, hfitted hget, (if_pos rfl).symm⟩⟩,
    .refl _, rfl, .refl _, rfl, rfl⟩

section

variable {c : Coordinator} {handle : Handle} {member : Member} {host : Host}

/-- A refusal changes nothing. -/
theorem watchedMember_refused (hwf : c.roster.WellFormed)
    (hget : c.roster.get? handle = some member) {interest : Interest} {kind : IoKind}
    (hanswer : c.host.reregister (.stream member.stream.id) (tokenOfMember handle) interest =
      (some kind, host)) {refused : Prop} (h : refused) :
    WatchedMember handle c { c with host := host } refused := by
  have hregistration : ∀ source, registration source host.calls =
      registration source c.host.calls :=
    fun source => (registration_reregister hanswer source).trans (if_neg nofun)
  refine ⟨hwf, fun _ => rfl, fun _ _ => ⟨id, rfl, hregistration _, id⟩, fun hafter => ?_,
    ⟨id, rfl, hregistration _, id⟩, rfl, sameStreams_reregister hanswer, rfl, rfl⟩
  rw [show c.roster.get? handle = some _ from hafter] at hget
  cases hget
  exact ⟨member, hafter, rfl, rfl, .inr ⟨h, id, rfl, hregistration _, id⟩⟩

/-- A member that is watched anew has its own stream, so nobody else's registration
changes. -/
theorem watchedMember_anew (hwf : c.roster.WellFormed) (hdistinct : Distinct c)
    (hget : c.roster.get? handle = some member)
    (hwanted : Interest.onDemand member.hasOutput ≠ member.watch)
    (hanswer : c.host.reregister (.stream member.stream.id) (tokenOfMember handle)
      (.onDemand member.hasOutput) = (none, host)) (refused : Prop) :
    WatchedMember handle c (({ c with host := host } : Coordinator).modifyMember handle fun m =>
      { m with watch := .onDemand member.hasOutput }) refused := by
  have hregistration := registration_reregister hanswer
  refine ⟨?_, ?_, ?_, ?_, ⟨id, rfl, ?_, id⟩, rfl, sameStreams_reregister hanswer, rfl, rfl⟩
  · exact hwf.modify handle
      (f := fun m => { m with watch := .onDemand member.hasOutput }) fun _ => rfl
  · intro other hne
    simp [modifyMember, hne]
  · intro other member' hne hother
    refine ⟨id, rfl, ?_, id⟩
    refine (hregistration _).trans (if_neg fun heq => hne ?_)
    exact hdistinct.apart hother hget (by simpa using heq.2.symm)
  · intro member' hafter
    obtain ⟨before, hbefore, ⟨hne, -⟩ | ⟨-, rfl⟩⟩ := get?_of_modifyMember hafter
    · exact absurd rfl hne
    · obtain rfl : member = before := Option.some.inj (hget.symm.trans hbefore)
      refine ⟨member, hget, rfl, rfl, .inl ⟨rfl, rfl, rfl, ?_⟩⟩
      simp only [memberSight, hwanted, if_false]
      exact (hregistration _).trans (if_pos ⟨rfl, rfl⟩)
  · exact (hregistration _).trans (if_neg (by simp))

end

theorem watchMember_watched {c : Coordinator} (hwf : c.roster.WellFormed) (hdistinct : Distinct c)
    (failed : List (Handle × IoKind)) (handle : Handle) :
    WatchedMember handle c (watchMember (c, failed) handle).1
        (∃ kind, (handle, kind) ∈ (watchMember (c, failed) handle).2) ∧
      failed ⊆ (watchMember (c, failed) handle).2 := by
  unfold watchMember
  simp only
  split
  next hget =>
    refine ⟨.refl hwf fun hmember => ?_, List.Subset.refl _⟩
    rw [hget] at hmember
    cases hmember
  next member hget =>
    by_cases hsame : Interest.onDemand member.hasOutput = member.watch
    · rw [if_pos hsame]
      refine ⟨.refl hwf fun hmember => ?_, List.Subset.refl _⟩
      rw [hget] at hmember
      cases hmember
      exact hsame.symm
    · rw [if_neg hsame]
      split
      next kind host hanswer =>
        exact ⟨watchedMember_refused hwf hget hanswer ⟨kind, by simp⟩, List.subset_append_left ..⟩
      next host hanswer =>
        exact ⟨watchedMember_anew hwf hdistinct hget hsame hanswer _, List.Subset.refl _⟩

/-! ### Before and after the poll -/

theorem Distinct.supply {c : Coordinator} (h : Distinct c) (supply : Supply) :
    Distinct { c with host := c.host.supply supply } :=
  h.mono (fun hget => ⟨_, hget, rfl⟩) (moreStreams_supply c.host supply)

theorem kept_poll (c : Coordinator) (timeout : Duration) (turn : Turn) :
    Kept c { c with host := (c.host.poll timeout turn).2 } := by
  have hstreams : SameStreams c.host (c.host.poll timeout turn).2 := by
    unfold Host.poll
    cases turn.pollFailure <;> exact ⟨rfl, rfl⟩
  exact .of_roster_eq rfl id id id rfl List.prefix_rfl
    (.of_call (c.host.calls_poll timeout turn) rfl) hstreams

theorem kept_latch (c : Coordinator) (event : Event) : Kept c (c.latch event) := by
  unfold latch
  split
  · exact .of_roster_eq rfl (fun _ => rfl) id id rfl List.prefix_rfl (.refl _) (.refl _)
  · split
    · exact .of_roster_eq rfl id (fun h => by simp [Latch.merge, h])
        (fun h => by simp [Latch.merge, h]) rfl List.prefix_rfl (.refl _) (.refl _)
    · split
      · exact kept_modifyMember c _ (fun _ => rfl)
          (fun member _ => ⟨rfl, fun h => by simp [Latch.merge, h], rfl, id⟩)
          (fun member h => by simp [Latch.merge, h])
      · exact (alike_note c _ _).kept

/-! ### Datagrams -/

theorem kept_actOnPacket (c : Coordinator) (msg : Message) (sender : SocketAddr) :
    Kept c (c.actOnPacket msg sender) := by
  unfold actOnPacket
  simp only
  split
  next answer target _ =>
    exact .of_roster_eq rfl id id id rfl (List.prefix_append ..) (.of_calls_eq rfl) ⟨rfl, rfl⟩
  next => exact Alike.kept ⟨rfl, rfl, ⟨rfl, rfl⟩, rfl, rfl, rfl, rfl⟩
  next => exact (alike_write c _).kept

theorem kept_recvDatagram (c : Coordinator) : Kept c { c with host := (recvDatagram c.host).2 } :=
  .of_roster_eq rfl id id id rfl List.prefix_rfl (exchange_recvDatagram c.host)
    (sameStreams_recvDatagram c.host)

/-- Receiving a datagram disturbs no write side, and forgets that the socket is readable
only when receiving would block. -/
theorem receivePacket_kept (c : Coordinator) :
    WritesKept c c.receivePacket.state ∧ Reads c c.receivePacket.state := by
  have hrecv := kept_recvDatagram c
  have habsent := @recvDatagram_absent c.host
  unfold receivePacket
  split
  next => exact ⟨(Kept.refl c).toWritesKept, (Kept.refl c).reads⟩
  next =>
    split
    next heq =>
      rw [heq] at hrecv
      exact ⟨hrecv.toWritesKept, hrecv.reads⟩
    next heq =>
      -- No datagram: the latch is cleared, and the last receive said that it would block.
      rw [heq] at hrecv habsent
      have hkept := hrecv.toWritesKept
      exact ⟨⟨hkept.roster, hkept.members, ⟨id, rfl, hkept.packets.registered, id⟩, hkept.streams⟩,
        hrecv.reads.listener, fun _ _ => endsDeclined_of_endsIn (habsent rfl) rfl,
        hrecv.reads.members⟩
    next heq =>
      rw [heq] at hrecv
      exact ⟨hrecv.toWritesKept, hrecv.reads⟩
    next msg sender host heq =>
      rw [heq] at hrecv
      have hkept := hrecv.trans (kept_actOnPacket _ msg sender)
      exact ⟨hkept.toWritesKept, hkept.reads⟩

/-- A stage that sends a datagram and disturbs nobody. -/
structure Sent (c c' : Coordinator) : Prop where
  roster : c'.roster = c.roster
  members : ∀ member, (c.memberSight member).Kept (c'.memberSight member)
  packets : c.packetSight.Written .send c'.packetSight
  streams : SameStreams c.host c'.host
  listenerLatch : c'.listenerLatch = c.listenerLatch
  readable : c'.packetLatch.readable = c.packetLatch.readable

theorem sendPacket_sent {c : Coordinator} (hlatch : c.packetLatch.writable = true) :
    Sent c c.sendPacket.state := by
  unfold sendPacket
  simp only [hlatch, Bool.not_true, Bool.false_eq_true, if_false]
  split
  next hbox =>
    have hidle : c.packetSight.output = false := by simp [packetSight, hbox]
    exact ⟨rfl, fun _ => .refl _, ⟨hlatch, rfl, rfl, fun _ hout =>
      absurd (hidle.symm.trans hout) (by decide)⟩, .refl _, rfl, rfl⟩
  next msg target rest hbox =>
    have hexchange := exchange_sendDatagram msg target c.scratch c.host
    have hstreams := sameStreams_sendDatagram msg target c.scratch c.host
    have hwaiting := @sendDatagram_waiting msg target c.scratch c.host
    split
    next heq =>
      rw [heq] at hexchange hstreams
      exact ⟨rfl, fun _ => ⟨id, rfl, hexchange.registration _, id⟩,
        ⟨hlatch, rfl, hexchange.registration _, fun hclear =>
          absurd (hlatch.symm.trans hclear) (by decide)⟩, hstreams, rfl, rfl⟩
    next scratch host heq =>
      rw [heq] at hexchange hstreams
      have hcount : Alike { c with scratch := scratch, host := host, outbox := rest }
          (({ c with scratch := scratch, host := host, outbox := rest } :
            Coordinator).countPacket msg target) := by
        unfold countPacket
        simp only
        split <;> exact ⟨rfl, rfl, ⟨rfl, rfl⟩, rfl, rfl, rfl, rfl⟩
      have hregistration : ∀ source, registration source
          (({ c with scratch := scratch, host := host, outbox := rest } :
            Coordinator).countPacket msg target).host.calls = registration source c.host.calls := by
        intro source
        rw [hcount.calls]
        exact hexchange.registration source
      refine ⟨hcount.roster, fun _ => ⟨id, rfl, hregistration _, id⟩,
        ⟨hlatch, hcount.packetWatch, hregistration _, fun hclear => ?_⟩,
        hstreams.trans hcount.streams, hcount.listenerLatch,
        congrArg Latch.readable hcount.packetLatch⟩
      have hstill := (congrArg Latch.writable hcount.packetLatch).trans hlatch
      exact absurd (hstill.symm.trans hclear) (by decide)
    next heq =>
      rw [heq] at hexchange hstreams hwaiting
      obtain ⟨bytes, hends⟩ := hwaiting rfl
      exact ⟨rfl, fun _ => ⟨id, rfl, hexchange.registration _, id⟩,
        ⟨hlatch, rfl, hexchange.registration _, fun _ _ => endsDeclined_of_endsIn hends rfl⟩,
        hstreams, rfl, rfl⟩

/-! ### Accepting -/

/-- A stage that may attach one connection, under a handle that named nobody, with the
poller watching it for reading. -/
structure Attached (c c' : Coordinator) : Prop where
  roster : c'.roster.WellFormed
  distinct : Distinct c'
  members : ∀ {handle member'}, c'.roster.get? handle = some member' →
    (∃ member, c.roster.get? handle = some member ∧ member'.stream.id = member.stream.id ∧
      (c.memberSight member).Kept (c'.memberSight member')) ∨
      (c.roster.get? handle = none ∧ member'.watch = .read ∧
        (c'.memberSight member').registered = some (tokenOfMember handle, .read))
  packets : c.packetSight.Kept c'.packetSight
  reads : Reads c c'

theorem WritesKept.attached {c c' : Coordinator} (h : WritesKept c c') (hreads : Reads c c')
    (hwf : c.roster.WellFormed) (hdistinct : Distinct c) : Attached c c' where
  roster := h.roster hwf
  distinct := h.distinct hdistinct
  members := fun hget => .inl (h.members hget)
  packets := h.packets
  reads := hreads

/-- The stream that is accepted is in nobody's hands any more. -/
theorem Distinct.accept {c : Coordinator} (h : Distinct c) {host : Host} {id : StreamId}
    {addr : SocketAddr} (haccept : c.host.accept = (.ok (id, addr), host)) :
    host.Orderly ∧ id ∉ host.waiting ∧ id.index < host.streams.length ∧
      (∀ {handle member}, c.roster.get? handle = some member →
        member.stream.id ≠ id ∧ member.stream.id ∉ host.waiting) := by
  obtain ⟨hwaiting, hstreams, -⟩ := accept_ok haccept
  have hnodup := h.store.nodup
  have hknown := h.store.known
  rw [hwaiting, List.nodup_cons] at hnodup
  rw [hwaiting, ← hstreams] at hknown
  refine ⟨⟨hnodup.2, fun other hother => hknown other (List.mem_cons_of_mem _ hother)⟩, hnodup.1,
    hknown id List.mem_cons_self, fun hget => ?_⟩
  have hattached := h.attached hget
  rw [hwaiting, List.mem_cons, not_or] at hattached
  exact hattached

/-- Streams stay distinct when somebody is attached over the stream that was accepted. -/
theorem Distinct.attach {c c' : Coordinator} (h : Distinct c) {host : Host} {id : StreamId}
    {addr : SocketAddr} (haccept : c.host.accept = (.ok (id, addr), host)) (fresh : Handle)
    (hmembers : ∀ {handle member'}, c'.roster.get? handle = some member' →
      c.roster.get? handle = some member' ∨ (handle = fresh ∧ member'.stream.id = id))
    (hstreams : SameStreams host c'.host) : Distinct c' := by
  obtain ⟨horderly, hgone, hknown, hattached⟩ := h.accept haccept
  refine ⟨hstreams.more.orderly horderly, ?_, ?_, ?_⟩
  · intro handle member' hget
    rw [hstreams.count]
    rcases hmembers hget with hbefore | ⟨-, hid⟩
    · rw [(accept_ok haccept).2.1]
      exact h.known hbefore
    · rw [hid]
      exact hknown
  · intro handle member' hget
    rw [hstreams.waiting]
    rcases hmembers hget with hbefore | ⟨-, hid⟩
    · exact (hattached hbefore).2
    · rw [hid]
      exact hgone
  · intro handle other member member' hget hget' hsame
    rcases hmembers hget with hbefore | ⟨hfresh, hid⟩
    · rcases hmembers hget' with hbefore' | ⟨-, hid'⟩
      · exact h.apart hbefore hbefore' hsame
      · exact absurd (hsame.trans hid') (hattached hbefore).1
    · rcases hmembers hget' with hbefore' | ⟨hfresh', -⟩
      · exact absurd (hsame.symm.trans hid) (hattached hbefore').1
      · exact hfresh.trans hfresh'.symm

/-- A stage after which a roster has gained one member at most, over the stream that was
accepted, and whose only other effect is on the registration of that stream. -/
theorem attached_of_accept {c c' : Coordinator} (hdistinct : Distinct c) {host : Host}
    {id : StreamId} {addr : SocketAddr} (haccept : c.host.accept = (.ok (id, addr), host))
    (hwf : c'.roster.WellFormed) (fresh : Handle)
    (hmembers : ∀ {handle member'}, c'.roster.get? handle = some member' →
      c.roster.get? handle = some member' ∨
        (handle = fresh ∧ c.roster.get? fresh = none ∧ member'.stream.id = id ∧
          member'.watch = .read ∧
            registration (.stream id) c'.host.calls = some (tokenOfMember fresh, .read)))
    (hstreams : SameStreams host c'.host)
    (hregistration : ∀ source, source ≠ .stream id →
      registration source c'.host.calls = registration source c.host.calls)
    (hlistener : c'.listenerLatch = c.listenerLatch) (hlatch : c'.packetLatch = c.packetLatch)
    (hwatch : c'.packetWatch = c.packetWatch) (houtbox : c'.outbox = c.outbox) :
    Attached c c' := by
  obtain ⟨-, -, -, hattached⟩ := hdistinct.accept haccept
  have hdistinct' : Distinct c' := hdistinct.attach haccept fresh
    (fun hget => (hmembers hget).imp_right fun h => ⟨h.1, h.2.2.1⟩) hstreams
  refine ⟨hwf, hdistinct', ?_, ?_, ?_⟩
  · intro handle member' hget
    rcases hmembers hget with hbefore | ⟨rfl, hnone, hid, hread, hregistered⟩
    · refine .inl ⟨member', hbefore, rfl, fun h => h, rfl, hregistration _ ?_, fun h => h⟩
      simpa using (hattached hbefore).1
    · refine .inr ⟨hnone, hread, ?_⟩
      rw [← hid] at hregistered
      exact hregistered
  · exact ⟨by simp [packetSight, hlatch], hwatch, hregistration _ (by simp),
      by simp [packetSight, houtbox]⟩
  · refine .of_latches hlistener (by rw [hlatch]) ?_
    intro handle before after hbefore hafter
    rcases hmembers hafter with hafter | ⟨rfl, hnone, -, -, -⟩
    · rw [hbefore] at hafter
      cases hafter
      rfl
    · rw [hnone] at hbefore
      cases hbefore

theorem attached_welcome {c : Coordinator} (hwf : c.roster.WellFormed) (hdistinct : Distinct c)
    {host : Host} {id : StreamId} {addr : SocketAddr}
    (haccept : c.host.accept = (.ok (id, addr), host)) (now : Instant) :
    Attached c (({ c with host := host } : Coordinator).welcome id addr now) := by
  obtain ⟨-, -, hcalls⟩ := accept_ok haccept
  have hbefore : ∀ source, registration source host.calls = registration source c.host.calls := by
    intro source
    rw [hcalls, registration_snoc]
    rfl
  have hget := fun handle member => @Roster.get?_of_enroll c.roster handle member hwf (.ofStream id)
    addr ⟨now, c.config.idleTimeout⟩
  have hnone := Roster.get?_fst_enroll hwf (.ofStream id) addr ⟨now, c.config.idleTimeout⟩
  have hwf' := hwf.enroll (.ofStream id) addr ⟨now, c.config.idleTimeout⟩
  unfold welcome
  rcases hattached : c.roster.enroll (.ofStream id) addr ⟨now, c.config.idleTimeout⟩ with
    ⟨⟨fresh, roster⟩, log⟩
  rw [hattached] at hget hnone hwf'
  simp only at hget hnone hwf' ⊢
  split
  next kind watched heq =>
    -- What was attached is gone again, and its stream is closed.
    have hregistered : ∀ source, registration source watched.calls =
        registration source host.calls :=
      fun source => (registration_register heq source).trans (if_neg nofun)
    have hstreams := sameStreams_register heq
    refine attached_of_accept hdistinct haccept (hwf'.detach fresh) fresh ?_
      ⟨hstreams.waiting, hstreams.count⟩ ?_ rfl rfl rfl rfl
    · intro handle member' hafter
      obtain ⟨hne, hbetween⟩ := Roster.get?_of_detach hwf' hafter
      exact .inl ((hget handle member' hbetween).resolve_left fun h => hne h.1).2
    · intro source hne
      change registration source (watched.calls ++ [.close id]) = _
      rw [registration_snoc, ← hbefore]
      exact (if_neg hne.symm).trans (hregistered source)
  next watched heq =>
    have hregistered := registration_register heq
    have hstreams := sameStreams_register heq
    refine attached_of_accept hdistinct haccept hwf' fresh ?_
      ⟨hstreams.waiting, hstreams.count⟩ ?_ rfl rfl rfl rfl
    · intro handle member' hafter
      rcases hget handle member' hafter with ⟨hsame, rfl⟩ | ⟨-, hmember⟩
      · exact .inr ⟨hsame, hnone, rfl, rfl, (hregistered _).trans (if_pos ⟨rfl, rfl⟩)⟩
      · exact .inl hmember
    · intro source hne
      rw [← hbefore]
      exact (hregistered source).trans (if_neg fun h => hne h.2.symm)

/-- Accepting attaches one connection at most, and forgets that there is one to accept
only when accepting would block. -/
theorem acceptOne_attached {c : Coordinator} (hwf : c.roster.WellFormed) (hdistinct : Distinct c)
    (now : Instant) : Attached c (c.acceptOne now).state := by
  have hfailed : ∀ {kind host}, c.host.accept = (.error kind, host) →
      Kept c { c with host := host } := by
    intro kind host heq
    obtain ⟨hstreams, hcalls⟩ := accept_error heq
    exact .of_roster_eq rfl id id id rfl List.prefix_rfl (.of_call hcalls rfl) hstreams
  have hdone := (Kept.refl c).toWritesKept.attached (Kept.refl c).reads hwf hdistinct
  unfold acceptOne
  split
  next => exact hdone
  next =>
    split
    next id addr host heq => exact attached_welcome hwf hdistinct heq now
    next host heq =>
      have hkept := hfailed heq
      refine WritesKept.attached ⟨hkept.roster, hkept.members, hkept.packets, hkept.streams⟩ ?_ hwf
        hdistinct
      refine ⟨fun _ _ => ?_, hkept.reads.packets, hkept.reads.members⟩
      exact endsDeclined_of_endsIn (.of_call (accept_error heq).2) rfl
    next kind host hne heq =>
      have hkept := hfailed heq
      simp only
      split
      · have hnoted := hkept.trans (alike_note _ .debug s!"Transient accept error: {kind}").kept
        exact hnoted.toWritesKept.attached hnoted.reads hwf hdistinct
      · exact hkept.toWritesKept.attached hkept.reads hwf hdistinct

/-! ### The start -/

/-- A coordinator starts with nobody attached, having opened and registered its sockets. -/
theorem start_ok {config : CoordinatorConfig} {host : Host} {c : Coordinator}
    (h : Coordinator.start config host = .ok c) :
    c.roster = .empty ∧ SameStreams host c.host ∧ c.packetWatch = .read ∧
      c.host.calls = host.calls ++
        [.bindTcp config.controlAddr, .register .listener tokenOfListener .read none,
          .bindUdp config.stunAddr, .register .packetSocket tokenOfPackets .read none] := by
  unfold Coordinator.start at h
  simp only [bind, Except.bind, pure, Except.pure, throw, throwThe, MonadExceptOf.throw] at h
  split at h
  next => cases h
  next =>
    split at h
    next => cases h
    next =>
      have hlistener := (host.bindTcp config.controlAddr).2.calls_register .listener tokenOfListener
        .read
      have hbefore : SameStreams host ((host.bindTcp config.controlAddr).2.register .listener
        tokenOfListener .read).2 := ⟨rfl, rfl⟩
      generalize (host.bindTcp config.controlAddr).2.register .listener tokenOfListener .read =
        listened at h hlistener hbefore
      split at h
      next => cases h
      next hlistened =>
        split at h
        next => cases h
        next =>
          have hpackets := (listened.2.bindUdp config.stunAddr).2.calls_register .packetSocket
            tokenOfPackets .read
          split at h
          next => cases h
          next hregistered =>
            cases h
            rw [Option.eq_none_iff_forall_ne_some.2 hlistened] at hlistener
            rw [Option.eq_none_iff_forall_ne_some.2 hregistered] at hpackets
            refine ⟨rfl, ⟨hbefore.waiting, hbefore.count⟩, rfl, hpackets.trans ?_⟩
            simp [Host.bindUdp, Host.bindTcp, hlistener]

theorem get?_start {config : CoordinatorConfig} {host : Host} {c : Coordinator}
    (h : Coordinator.start config host = .ok c) (handle : Handle) :
    c.roster.get? handle = none := by
  rw [(start_ok h).1]
  rfl

theorem Distinct.start {config : CoordinatorConfig} {host : Host} {c : Coordinator}
    (horderly : host.Orderly) (h : Coordinator.start config host = .ok c) : Distinct c := by
  refine ⟨(start_ok h).2.1.more.orderly horderly, ?_, ?_, ?_⟩
  · intro handle member hget
    simp [get?_start h] at hget
  · intro handle member hget
    simp [get?_start h] at hget
  · intro handle other member member' hget
    simp [get?_start h] at hget

end Coordinator
end Rendezvous
