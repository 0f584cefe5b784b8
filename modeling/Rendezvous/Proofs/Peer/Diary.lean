import Mathlib.Data.List.Induction
import Rendezvous.Proofs.Peer.Session

/-!
# Rendezvous.Proofs.Peer.Diary

**The life of a session, whatever is done to it.** A `Change` is anything that is done to a
session from outside: its timer is looked at, a message is fed in from either side, or
something is taken off a queue. A `Diary` is a session together with what was done to it
since it started: whether its timer ever ran out, what was put into its queues and taken
off them, and which peer lists it listened to.

* `val_tick`, `val_onPacket_stunResponse` and `val_onControl_peersToConnect` say what each
  change comes to; nobody ever finds a session between learning its address and announcing
  it, so a session is `Settled` after each of them.
* `Follows` is what a change cannot undo: phases come in one order, and the public address
  is learnt once.
* `Diary.Sound` ties the diary to the session, and `Diary.lifecycle` is what follows.
-/

namespace Rendezvous

/-- The place of a phase in the order in which a session goes through them. -/
def Phase.rank : Phase → Nat
  | .unknownSelf => 0
  | .awaitingStunResponse => 1
  | .knownSelf => 2
  | .awaitingPeerList => 3
  | .hasPeerList => 4
  | .connected => 5

namespace Session

/-! ### What is done to a session -/

/-- Something that is done to a session from outside. -/
inductive Change where
  | tick (now : Instant)
  | packet (msg : Message) (sender : SocketAddr) (now : Instant)
  | control (msg : Message)
  | takeControl
  | takePacket

/-- A session after a change. -/
def change (s : Session) : Change → Session
  | .tick now => (s.tick now).val
  | .packet msg sender now => (s.onPacket msg sender now).val
  | .control msg => (s.onControl msg).val
  | .takeControl => s.takeControl.2
  | .takePacket => s.takePacket.2

/-- Does a change find that the timer has run out? -/
def fires (s : Session) : Change → Bool
  | .tick now => s.timer.ranOut now
  | _ => false

/-- Does a change tell the session its public address? -/
def Told (s : Session) (observed : SocketV4) (change : Change) : Prop :=
  s.phase = .awaitingStunResponse ∧
    ∃ now, change = .packet (.stunResponse observed) s.coordinator now

/-- The peer list that a session listens to in a change, if there is one. -/
def heard (s : Session) : Change → List (List PeerEntry)
  | .control (.peersToConnect peers) => if s.phase.listens then [peers] else []
  | _ => []

/-- The message that a change takes off the control queue, if there is one. -/
def controlTaken (s : Session) : Change → List Message
  | .takeControl => s.takeControl.1.toList
  | _ => []

/-- The datagram that a change takes off the packet queue, if there is one. -/
def packetTaken (s : Session) : Change → Outbox
  | .takePacket => s.takePacket.1.toList
  | _ => []

end Session

/-- What has been added at the end of a queue; nothing if it got shorter. -/
def added {α : Type} (before after : List α) : List α := after.drop before.length

/-- A session with what has been done to it since it started. -/
structure Diary where
  session : Session
  /-- Has the timer ever been found to have run out? -/
  fired : Bool
  /-- All messages ever put into the control queue. -/
  controlPut : List Message
  /-- All messages ever taken off it. -/
  controlTaken : List Message
  /-- All datagrams ever put into the packet queue. -/
  packetsPut : Outbox
  /-- All datagrams ever taken off it. -/
  packetsTaken : Outbox
  /-- All peer lists that were listened to, in the order in which they came. -/
  lists : List (List PeerEntry)

namespace Diary

open Session (Change)

/-- Nothing has been done to a session yet. -/
def first (s : Session) : Diary := ⟨s, false, [], [], [], [], []⟩

/-- One more thing is done. -/
def record (d : Diary) (change : Change) : Diary :=
  let s := d.session
  let s' := s.change change
  { session := s'
    fired := d.fired || s.fires change
    controlPut := d.controlPut ++ added s.controlQueue s'.controlQueue
    controlTaken := d.controlTaken ++ s.controlTaken change
    packetsPut := d.packetsPut ++ added s.packetQueue s'.packetQueue
    packetsTaken := d.packetsTaken ++ s.packetTaken change
    lists := d.lists ++ s.heard change }

/-- The diary of a session to which things have been done in turn. -/
def after (s : Session) (changes : List Change) : Diary := changes.foldl record (first s)

end Diary

/-! ### What each change comes to -/

namespace Session

open Phase

variable {s s' : Session}

/-- Nobody finds a session between learning its public address and announcing it. So it
knows the address when it listens, and is connected when it has somebody to connect to. -/
structure Settled (s : Session) : Prop where
  phase_ne : s.phase ≠ .knownSelf
  publicAddr : s.publicAddr.isSome = s.phase.listens
  connected : s.phase = .connected → s.candidates ≠ []

theorem settled_start (coordinator : SocketAddr) (localAddr : SocketV4) (pace : Pace)
    (now : Instant) : (start coordinator localAddr pace now).Settled :=
  ⟨nofun, rfl, nofun⟩

/-- A session whose timer has run out asks for its address, or refreshes its binding once it
has announced itself. -/
theorem val_tick (h : s.phase ≠ .knownSelf) (now : Instant) :
    (s.tick now).val =
      if s.timer.ranOut now then
        if s.phase.listens then s.sendPacket .keepAlive now s.pace.refresh
        else
          { s.sendPacket .stunRequest now s.pace.retry with phase := .awaitingStunResponse }
      else s := by
  unfold tick
  split
  · unfold fire
    cases hphase : s.phase with
    | knownSelf => exact absurd hphase h
    | unknownSelf => simp [listens]
    | awaitingStunResponse => simp [listens, sendPacket]
    | _ => simp [listens]
  · rfl

/-- What is taken in of a peer list never costs a candidate. -/
theorem candidates_learnAll (ourPublic : SocketV4) (s : Session) (peers : List PeerEntry) :
    s.candidates <+: (learnAll ourPublic s peers).candidates := by
  induction peers generalizing s with
  | nil => exact List.prefix_rfl
  | cons peer peers ih =>
      refine List.IsPrefix.trans ?_ (ih (learnPeer ourPublic s peer).val)
      unfold learnPeer addCandidate
      split
      · exact List.prefix_rfl
      · split
        · exact List.prefix_rfl
        · exact List.prefix_append ..

/-! ### What a change cannot undo -/

/-- One session is another one later: its phase does not come before, and what it is and
has learnt about itself is the same. -/
structure Follows (s s' : Session) : Prop where
  coordinator : s'.coordinator = s.coordinator
  localAddr : s'.localAddr = s.localAddr
  rank : s.phase.rank ≤ s'.phase.rank
  publicAddr : ∀ addr, s.publicAddr = some addr → s'.publicAddr = some addr

theorem Follows.refl (s : Session) : Follows s s := ⟨rfl, rfl, Nat.le_refl _, fun _ h => h⟩

theorem Follows.trans {a b c : Session} (hab : Follows a b) (hbc : Follows b c) : Follows a c where
  coordinator := hbc.coordinator.trans hab.coordinator
  localAddr := hbc.localAddr.trans hab.localAddr
  rank := Nat.le_trans hab.rank hbc.rank
  publicAddr := fun addr h => hbc.publicAddr addr (hab.publicAddr addr h)

/-! ### One change -/

/-- What a change does to a settled session. -/
structure Stepped (s : Session) (change : Change) (s' : Session) : Prop where
  settled : s'.Settled
  follows : Follows s s'
  unknown : s'.phase = .unknownSelf ↔ s.phase = .unknownSelf ∧ s.fires change = false
  /-- The session is told its address and announces it, or neither. -/
  address :
    (∃ observed, s.Told observed change ∧ s.publicAddr = none ∧ s'.publicAddr = some observed ∧
      added s.controlQueue s'.controlQueue = [.connect ⟨observed, s.localAddr⟩]) ∨
    ((∀ observed, ¬ s.Told observed change) ∧ s'.publicAddr = s.publicAddr ∧
      added s.controlQueue s'.controlQueue = [])
  packets : ∀ item ∈ added s.packetQueue s'.packetQueue, item.2 = s.coordinator
  controlKept : s.controlQueue ++ added s.controlQueue s'.controlQueue =
    s.controlTaken change ++ s'.controlQueue
  packetsKept : s.packetQueue ++ added s.packetQueue s'.packetQueue =
    s.packetTaken change ++ s'.packetQueue

/-- A session knows an address after a change if it knew it before or is told it. -/
theorem Stepped.learnt {change : Change} (h : Stepped s change s') (observed : SocketV4) :
    s'.publicAddr = some observed ↔ s.publicAddr = some observed ∨ s.Told observed change := by
  rcases h.address with ⟨told, htold, hnone, hsome, -⟩ | ⟨hnot, hsame, -⟩
  · have hsole : s.Told observed change ↔ told = observed := by
      obtain ⟨hphase, _, rfl⟩ := htold
      simp [Told, hphase, eq_comm]
    simp [hnone, hsome, hsole]
  · simp [hsame, hnot]

@[simp] theorem added_append {α : Type} (before more : List α) :
    added before (before ++ more) = more :=
  List.drop_left

@[simp] theorem added_self {α : Type} (queue : List α) : added queue queue = [] :=
  List.drop_length

@[simp] theorem added_tail {α : Type} (queue : List α) : added queue queue.tail = [] :=
  List.drop_eq_nil_of_le (by simp)

theorem head?_toList_append_tail {α : Type} (queue : List α) :
    queue.head?.toList ++ queue.tail = queue := by
  cases queue <;> rfl

/-- A change that leaves a session as it is. -/
theorem Settled.stepped_same (h : s.Settled) {change : Change} (hfires : s.fires change = false)
    (htold : ∀ observed, ¬ s.Told observed change) (hcontrol : s.controlTaken change = [])
    (hpacket : s.packetTaken change = []) : Stepped s change s where
  settled := h
  follows := .refl s
  unknown := by simp [hfires]
  address := .inr ⟨htold, rfl, added_self _⟩
  packets := by simp
  controlKept := by simp [hcontrol]
  packetsKept := by simp [hpacket]

theorem Settled.stepped_tick (h : s.Settled) (now : Instant) :
    Stepped s (.tick now) (s.tick now).val := by
  have htold : ∀ observed, ¬ s.Told observed (.tick now) := by
    rintro observed ⟨-, _, hchange⟩
    cases hchange
  rw [val_tick h.phase_ne]
  split
  next hdue =>
    split
    next hlistens =>
      refine ⟨⟨h.phase_ne, h.publicAddr, h.connected⟩,
        ⟨rfl, rfl, Nat.le_refl _, fun _ ha => ha⟩, ?_, .inr ⟨htold, rfl, added_self _⟩, ?_, ?_, ?_⟩
      · have hphase : s.phase ≠ .unknownSelf := fun hphase => by simp [hphase, listens] at hlistens
        simp [sendPacket, hphase]
      · simp [sendPacket]
      · simp [sendPacket, controlTaken]
      · simp [sendPacket, packetTaken]
    next hdeaf =>
      have hearly : s.phase = .unknownSelf ∨ s.phase = .awaitingStunResponse := by
        have hne := h.phase_ne
        cases hphase : s.phase <;> simp_all [listens]
      have hnone : s.publicAddr = none := by
        simpa [Bool.eq_false_iff.2 hdeaf] using h.publicAddr
      refine ⟨⟨by simp, by simp [sendPacket, hnone, listens], by simp⟩,
        ⟨rfl, rfl, ?_, fun _ ha => ha⟩, ?_, .inr ⟨htold, rfl, added_self _⟩, ?_, ?_, ?_⟩
      · rcases hearly with hphase | hphase <;> simp [hphase, rank]
      · simp [fires, hdue]
      · simp [sendPacket]
      · simp [sendPacket, controlTaken]
      · simp [sendPacket, packetTaken]
  next hearly => exact h.stepped_same (by simpa [fires] using hearly) htold rfl rfl

theorem Settled.stepped_packet (h : s.Settled) (msg : Message) (sender : SocketAddr)
    (now : Instant) : Stepped s (.packet msg sender now) (s.onPacket msg sender now).val := by
  cases msg with
  | stunResponse observed =>
      rw [val_onPacket_stunResponse]
      split
      next hasked =>
        obtain ⟨rfl, hphase⟩ := hasked
        have hnone : s.publicAddr = none := by simpa [hphase, listens] using h.publicAddr
        refine ⟨⟨by simp, rfl, by simp⟩, ⟨rfl, rfl, by simp [hphase, rank], ?_⟩, by simp [hphase],
          .inl ⟨observed, ⟨hphase, now, rfl⟩, hnone, rfl, added_append _ _⟩, by simp,
          by simp [controlTaken], by simp [packetTaken]⟩
        intro addr haddr
        rw [hnone] at haddr
        cases haddr
      next hnot =>
        refine h.stepped_same rfl ?_ rfl rfl
        rintro other ⟨hphase, _, hchange⟩
        cases hchange
        exact hnot ⟨rfl, hphase⟩
  | _ =>
      refine h.stepped_same rfl ?_ rfl rfl
      rintro observed ⟨-, _, hchange⟩
      cases hchange

/-- A peer list that is taken in leads to a phase that does not come before. -/
theorem Settled.rank_le (h : s.Settled) {ourPublic : SocketV4} (hlistens : s.phase.listens = true)
    (peers : List PeerEntry) :
    s.phase.rank ≤
      (if (learnAll ourPublic s peers).candidates.isEmpty then Phase.hasPeerList
        else .connected).rank := by
  split
  next hnobody =>
    have hconnected : s.phase ≠ .connected := fun hphase =>
      h.connected hphase (List.prefix_nil.1
        (List.isEmpty_iff.1 hnobody ▸ candidates_learnAll ourPublic s peers))
    cases hphase : s.phase <;> simp_all [listens, rank]
  next => cases s.phase <;> simp [rank]

theorem Settled.stepped_control (h : s.Settled) (msg : Message) :
    Stepped s (.control msg) (s.onControl msg).val := by
  have htold : ∀ observed, ¬ s.Told observed (.control msg) := by
    rintro observed ⟨-, _, hchange⟩
    cases hchange
  have hsame : Stepped s (.control msg) s := h.stepped_same rfl htold rfl rfl
  cases msg with
  | peersToConnect peers =>
      rw [val_onControl_peersToConnect]
      split
      next hlistens =>
        obtain ⟨ourPublic, hpublic⟩ := Option.isSome_iff_exists.1 (h.publicAddr.trans hlistens)
        have hframe := learnAll_frame ourPublic s peers
        rw [val_learnPeers, hpublic]
        simp only
        refine ⟨⟨?_, ?_, ?_⟩, ⟨by rw [hframe], by rw [hframe], h.rank_le hlistens peers, ?_⟩, ?_,
          .inr ⟨htold, by rw [hframe], by rw [hframe, added_self]⟩, ?_, ?_, ?_⟩
        · split <;> simp
        · rw [hframe, hpublic]
          split <;> rfl
        · split
          · simp
          next hsome => exact fun _ => by simpa using hsome
        · rw [hframe]
          exact fun _ haddr => haddr
        · have hphase : s.phase ≠ .unknownSelf := fun hphase => by
            simp [hphase, listens] at hlistens
          simp only [hphase, false_and, iff_false]
          split <;> simp
        · rw [hframe]
          simp
        · rw [hframe]
          simp [controlTaken]
        · rw [hframe]
          simp [packetTaken]
      next => exact hsame
  | _ => exact hsame

/-- Every change takes a settled session one step on. -/
theorem Settled.stepped (h : s.Settled) (change : Change) : Stepped s change (s.change change) := by
  cases change with
  | tick now => exact h.stepped_tick now
  | packet msg sender now => exact h.stepped_packet msg sender now
  | control msg => exact h.stepped_control msg
  | takeControl =>
      refine ⟨⟨h.phase_ne, h.publicAddr, h.connected⟩,
        ⟨rfl, rfl, Nat.le_refl _, fun _ ha => ha⟩, ?_, .inr ⟨?_, rfl, added_tail _⟩, ?_, ?_, ?_⟩
      · simp [Session.change, takeControl, fires]
      · rintro observed ⟨-, _, hchange⟩
        cases hchange
      · simp [Session.change, takeControl]
      · simp [Session.change, takeControl, controlTaken, head?_toList_append_tail]
      · simp [Session.change, takeControl, packetTaken]
  | takePacket =>
      refine ⟨⟨h.phase_ne, h.publicAddr, h.connected⟩,
        ⟨rfl, rfl, Nat.le_refl _, fun _ ha => ha⟩, ?_, .inr ⟨?_, rfl, added_self _⟩, ?_, ?_, ?_⟩
      · simp [Session.change, takePacket, fires]
      · rintro observed ⟨-, _, hchange⟩
        cases hchange
      · simp [Session.change, takePacket]
      · simp [Session.change, takePacket, controlTaken]
      · simp [Session.change, takePacket, packetTaken, head?_toList_append_tail]

end Session

/-! ### A whole life -/

namespace Diary

open Session (Change)

theorem after_concat (s : Session) (changes : List Change) (change : Change) :
    after s (changes ++ [change]) = (after s changes).record change := by
  simp [after]

/-- What holds of a diary that was begun with a session. -/
structure Sound (start : Session) (d : Diary) : Prop where
  settled : d.session.Settled
  follows : Session.Follows start d.session
  unknown : d.session.phase = .unknownSelf ↔ d.fired = false
  announced : d.controlPut = (d.session.ownEntry.map Message.connect).toList
  control : d.controlPut = d.controlTaken ++ d.session.controlQueue
  packets : d.packetsPut = d.packetsTaken ++ d.session.packetQueue
  addressed : ∀ item ∈ d.packetsPut, item.2 = start.coordinator

theorem sound_first (coordinator : SocketAddr) (localAddr : SocketV4) (pace : Pace)
    (now : Instant) :
    Sound (.start coordinator localAddr pace now)
      (first (.start coordinator localAddr pace now)) where
  settled := Session.settled_start coordinator localAddr pace now
  follows := .refl _
  unknown := ⟨fun _ => rfl, fun _ => rfl⟩
  announced := rfl
  control := rfl
  packets := rfl
  addressed := by simp [first]

/-- A session announces itself in the change in which it is told its address, and the
address is kept from then on. So the announcement is there if the address is. -/
theorem Sound.record {start : Session} {d : Diary} (h : Sound start d) (change : Change) :
    Sound start (d.record change) := by
  have hstep := h.settled.stepped change
  refine ⟨hstep.settled, h.follows.trans hstep.follows, ?_, ?_, ?_, ?_, ?_⟩
  · calc (d.session.change change).phase = .unknownSelf
        ↔ d.session.phase = .unknownSelf ∧ d.session.fires change = false := hstep.unknown
      _ ↔ (d.record change).fired = false := by simp [Diary.record, h.unknown]
  · simp only [Diary.record, Session.ownEntry, hstep.follows.localAddr, h.announced]
    rcases hstep.address with ⟨observed, -, hnone, hsome, hput⟩ | ⟨-, hsame, hput⟩
    · simp [hnone, hsome, hput]
    · simp [hsame, hput]
  · simp only [Diary.record, h.control, List.append_assoc, hstep.controlKept]
  · simp only [Diary.record, h.packets, List.append_assoc, hstep.packetsKept]
  · intro item hitem
    rcases List.mem_append.1 hitem with hold | hnew
    · exact h.addressed item hold
    · exact (hstep.packets item hnew).trans h.follows.coordinator

theorem sound_after {start : Session} (h : Sound start (first start)) (changes : List Change) :
    Sound start (after start changes) := by
  induction changes using List.reverseRecOn with
  | nil => exact h
  | append_singleton changes change ih =>
      rw [after_concat]
      exact ih.record change

/-- What was done later only follows. -/
theorem follows_after {start : Session} (h : Sound start (first start))
    (changes more : List Change) :
    Session.Follows (after start changes).session (after start (changes ++ more)).session := by
  induction more using List.reverseRecOn with
  | nil => simpa using Session.Follows.refl _
  | append_singleton more change ih =>
      rw [← List.append_assoc, after_concat]
      exact ih.trans ((sound_after h _).settled.stepped change).follows

/-- The life of a session that was started with these addresses, up to some point. -/
structure Lifecycle (coordinator : SocketAddr) (localAddr : SocketV4) (start : Session)
    (changes : List Change) : Prop where
  /-- Nobody ever finds the session between learning its address and announcing it. -/
  settled : (after start changes).session.phase ≠ .knownSelf
  /-- The first question goes out when the timer is first found to have run out. -/
  unknown : (after start changes).session.phase = .unknownSelf ↔ (after start changes).fired = false
  /-- The public address is known in just the phases after the announcement. -/
  known : (after start changes).session.publicAddr.isSome = true ↔
    (after start changes).session.phase = .awaitingPeerList ∨
      (after start changes).session.phase = .hasPeerList ∨
        (after start changes).session.phase = .connected
  /-- It is learnt from the coordinator's answer while one is awaited, and not otherwise. -/
  learnt : ∀ change observed,
    (after start (changes ++ [change])).session.publicAddr = some observed ↔
      (after start changes).session.publicAddr = some observed ∨
        ((after start changes).session.phase = .awaitingStunResponse ∧
          ∃ now, change = .packet (.stunResponse observed) coordinator now)
  /-- Once known it stays the same. -/
  kept : ∀ more addr, (after start changes).session.publicAddr = some addr →
    (after start (changes ++ more)).session.publicAddr = some addr
  /-- No phase comes back. -/
  onward : ∀ more, (after start changes).session.phase.rank ≤
    (after start (changes ++ more)).session.phase.rank
  /-- All that is ever put into the control queue is one announcement, once the public
  address is known. -/
  announced : (after start changes).controlPut =
    ((after start changes).session.publicAddr.map fun addr =>
      Message.connect ⟨addr, localAddr⟩).toList
  /-- What was put into the control queue was taken off it in the same order, or is there. -/
  control : (after start changes).controlPut =
    (after start changes).controlTaken ++ (after start changes).session.controlQueue
  /-- The same for the packet queue. -/
  packets : (after start changes).packetsPut =
    (after start changes).packetsTaken ++ (after start changes).session.packetQueue
  /-- Every datagram ever queued is for the coordinator's packet address. -/
  addressed : ∀ item ∈ (after start changes).packetsPut, item.2 = coordinator

theorem lifecycle (coordinator : SocketAddr) (localAddr : SocketV4) (pace : Pace) (now : Instant)
    (changes : List Change) :
    Lifecycle coordinator localAddr (.start coordinator localAddr pace now) changes := by
  have hfirst := sound_first coordinator localAddr pace now
  have h := sound_after hfirst changes
  have hcoordinator := h.follows.coordinator
  have hlocal := h.follows.localAddr
  refine ⟨h.settled.phase_ne, h.unknown, ?_, ?_, ?_, ?_, ?_, h.control, h.packets, h.addressed⟩
  · rw [h.settled.publicAddr]
    generalize (after _ changes).session.phase = phase
    cases phase <;> simp [Phase.listens]
  · intro change observed
    rw [after_concat]
    refine ((h.settled.stepped change).learnt observed).trans (or_congr_right ?_)
    rw [Session.Told, hcoordinator]
    rfl
  · exact fun more => (follows_after hfirst changes more).publicAddr
  · exact fun more => (follows_after hfirst changes more).rank
  · rw [h.announced, Session.ownEntry, Option.map_map, hlocal]
    rfl

end Diary
end Rendezvous
