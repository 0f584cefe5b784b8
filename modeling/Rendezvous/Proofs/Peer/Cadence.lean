import Rendezvous.Proofs.Peer.Diary

/-!
# Rendezvous.Proofs.Peer.Cadence

**How often a session speaks.** The timer of a session is reset in several places and means
different things in different phases. But all that sets it is a message: a `Journal` keeps what
a session has put into its queues and when, and the timer always runs since the last of these
messages, for as long as that message says (`Journal.due`).

* `Session.utterance` says what a change makes a session say; `Session.Speaks` ties it to the
  queues and to the timer, and says on which `Occasion` it is said.
* `Spaced` is the invariant of a journal. That two messages of a kind are apart is kept, because
  the message that a session repeats next was last said when its timer was set.
* `Journal.cadence` is what follows.
-/

namespace Rendezvous

/-! ### What a session says -/

/-- A message that was put into a queue, with the time. -/
structure Utterance where
  time : Instant
  msg : Message

namespace Session

/-- The time at which a change is made, if it matters to the session. -/
def Change.time? : Change → Option Instant
  | .tick now => some now
  | .packet _ _ now => some now
  | _ => none

/-- The messages that a change puts into the queues. -/
def put (s : Session) (change : Change) : List Message :=
  added s.controlQueue (s.change change).controlQueue ++
    (added s.packetQueue (s.change change).packetQueue).map Prod.fst

/-- What a session says whenever its timer has run out. -/
def refrain (s : Session) : Message := if s.publicAddr = none then .stunRequest else .keepAlive

/-- What a change makes a session say. -/
def utterance (s : Session) : Change → Option Utterance
  | .tick now => if s.timer.ranOut now then some ⟨now, s.refrain⟩ else none
  | .packet (.stunResponse observed) sender now =>
    if sender = s.coordinator ∧ s.phase = .awaitingStunResponse then
      some ⟨now, .connect ⟨observed, s.localAddr⟩⟩
    else none
  | _ => none

end Session

/-- How long a session is silent after a message. -/
def Pace.silence (pace : Pace) : Message → Duration
  | .stunRequest => pace.retry
  | _ => pace.refresh

namespace Session

variable {s : Session}

/-- Besides a tick, only being told its address makes a session speak. -/
theorem utterance_eq_none {change : Change} (htick : ∀ now, change ≠ .tick now)
    (htold : ∀ observed, ¬ s.Told observed change) : s.utterance change = none := by
  cases change with
  | tick now => exact absurd rfl (htick now)
  | packet msg sender now =>
      cases msg with
      | stunResponse observed =>
          refine if_neg ?_
          rintro ⟨rfl, hphase⟩
          exact htold observed ⟨hphase, now, rfl⟩
      | _ => rfl
  | _ => rfl

/-- A tick of a settled session. -/
theorem Settled.tick_eq (h : s.Settled) (now : Instant) :
    (s.tick now).val =
      if s.timer.ranOut now then
        { s.sendPacket s.refrain now (s.pace.silence s.refrain) with
          phase := if s.publicAddr = none then .awaitingStunResponse else s.phase }
      else s := by
  rw [val_tick h.phase_ne]
  have hpublic := h.publicAddr
  by_cases hlistens : s.phase.listens = true
  · rw [hlistens, Option.isSome_iff_ne_none] at hpublic
    simp [refrain, hpublic, hlistens, Pace.silence, sendPacket]
  · have hnone : s.publicAddr = none := by simpa [hlistens] using hpublic
    simp [refrain, hnone, hlistens, Pace.silence]

/-- The occasion on which a session says something: its timer has run out, or it is told its
public address. -/
inductive Occasion (s : Session) (change : Change) : Option Utterance → Prop where
  | none (hsame : (s.change change).publicAddr = s.publicAddr) : Occasion s change none
  | due (now : Instant) (hdue : s.timer.ranOut now = true)
      (hsame : (s.change change).publicAddr = s.publicAddr) :
      Occasion s change (some ⟨now, s.refrain⟩)
  | told (now : Instant) (own : PeerEntry) (hnone : s.publicAddr = none)
      (hsome : (s.change change).publicAddr ≠ none) :
      Occasion s change (some ⟨now, .connect own⟩)

/-- What a change makes a session say, and what that does to its queues and its timer. -/
structure Speaks (s : Session) (change : Change) : Prop where
  put : s.put change = (s.utterance change).toList.map Utterance.msg
  time : ∀ u, s.utterance change = some u → change.time? = some u.time
  timer : (s.change change).timer =
    match s.utterance change with
    | none => s.timer
    | some u => ⟨u.time, some (s.pace.silence u.msg)⟩
  pace : (s.change change).pace = s.pace
  occasion : Occasion s change (s.utterance change)

namespace Speaks

variable {change : Change}

/-- A change that leaves timer, queues, pace and address as they are. -/
theorem of_silent (hspoken : s.utterance change = none) (hput : s.put change = [])
    (htimer : (s.change change).timer = s.timer) (hpace : (s.change change).pace = s.pace)
    (hsame : (s.change change).publicAddr = s.publicAddr) : Speaks s change := by
  refine ⟨?_, ?_, ?_, hpace, ?_⟩
  · rw [hput, hspoken]
    rfl
  · rw [hspoken]
    exact nofun
  · rw [htimer, hspoken]
  · rw [hspoken]
    exact .none hsame

/-- A change that puts one message into a queue. -/
theorem of_spoken {u : Utterance} (hspoken : s.utterance change = some u)
    (htime : change.time? = some u.time) (hput : s.put change = [u.msg])
    (htimer : (s.change change).timer = ⟨u.time, some (s.pace.silence u.msg)⟩)
    (hpace : (s.change change).pace = s.pace) (hoccasion : Occasion s change (some u)) :
    Speaks s change := by
  refine ⟨?_, ?_, ?_, hpace, ?_⟩
  · rw [hput, hspoken]
    rfl
  · intro other hother
    rw [hspoken] at hother
    cases hother
    exact htime
  · rw [htimer, hspoken]
  · rw [hspoken]
    exact hoccasion

end Speaks

theorem Settled.speaks_tick (h : s.Settled) (now : Instant) : Speaks s (.tick now) := by
  have htick : s.change (.tick now) = _ := h.tick_eq now
  by_cases hdue : s.timer.ranOut now = true
  · rw [if_pos hdue] at htick
    refine .of_spoken (if_pos hdue) rfl ?_ ?_ ?_ (.due now hdue ?_)
    · rw [Session.put, htick]
      simp [sendPacket]
    all_goals rw [htick]; rfl
  · rw [if_neg hdue] at htick
    refine .of_silent (if_neg hdue) ?_ ?_ ?_ ?_
    · rw [Session.put, htick]
      simp
    all_goals rw [htick]

theorem Settled.speaks_packet (h : s.Settled) (msg : Message) (sender : SocketAddr)
    (now : Instant) : Speaks s (.packet msg sender now) := by
  cases msg with
  | stunResponse observed =>
      have hpacket : s.change (.packet (.stunResponse observed) sender now) = _ :=
        val_onPacket_stunResponse s observed sender now
      by_cases hasked : sender = s.coordinator ∧ s.phase = .awaitingStunResponse
      · rw [if_pos hasked] at hpacket
        have hnone : s.publicAddr = none := by
          simpa [hasked.2, Phase.listens] using h.publicAddr
        refine .of_spoken (if_pos hasked) rfl ?_ ?_ ?_ (.told now _ hnone ?_)
        · rw [Session.put, hpacket]
          simp
        · rw [hpacket]
          rfl
        · rw [hpacket]
        · rw [hpacket]
          exact Option.some_ne_none _
      · rw [if_neg hasked] at hpacket
        refine .of_silent (if_neg hasked) ?_ ?_ ?_ ?_
        · rw [Session.put, hpacket]
          simp
        all_goals rw [hpacket]
  | _ =>
      refine .of_silent rfl ?_ rfl rfl rfl
      simp [Session.put, Session.change, onPacket]

theorem Settled.speaks (h : s.Settled) (change : Change) : Speaks s change := by
  cases change with
  | tick now => exact h.speaks_tick now
  | packet msg sender now => exact h.speaks_packet msg sender now
  | control msg =>
      have hcontrol : s.change (.control msg) = _ := onControl_frame s msg
      refine .of_silent rfl ?_ ?_ ?_ ?_
      · rw [Session.put, hcontrol]
        simp
      all_goals rw [hcontrol]
  | takeControl =>
      refine .of_silent rfl ?_ rfl rfl rfl
      simp [Session.put, Session.change, takeControl]
  | takePacket =>
      refine .of_silent rfl ?_ rfl rfl rfl
      simp [Session.put, Session.change, takePacket]

end Session

/-! ### All that was said -/

/-- A session with all that it has said since it started. -/
structure Journal where
  session : Session
  said : List Utterance

namespace Journal

open Session (Change)

/-- One more change: what it puts into the queues is noted with its time. -/
def record (j : Journal) (change : Change) : Journal where
  session := j.session.change change
  said := j.said ++
    match change.time? with
    | some now => (j.session.put change).map (Utterance.mk now)
    | none => []

/-- The journal of a session after some changes. -/
def after (s : Session) (changes : List Change) : Journal := changes.foldl record ⟨s, []⟩

/-- Since when the timer runs, and for how long: since the last message that was said, or since
the session was created, when it was due at once. -/
def due (pace : Pace) (created : Instant) (said : List Utterance) : Instant × Duration :=
  match said.getLast? with
  | some last => (last.time, pace.silence last.msg)
  | none => (created, .zero)

theorem due_concat (pace : Pace) (created : Instant) (said : List Utterance) (u : Utterance) :
    due pace created (said ++ [u]) = (u.time, pace.silence u.msg) := by
  simp [due]

/-- Messages of one kind are some time apart, each from all that came before. -/
def Apart (msg : Message) (delay : Duration) (said : List Utterance) : Prop :=
  said.Pairwise fun a b => a.msg = msg → b.msg = msg → a.time.nanos + delay.nanos ≤ b.time.nanos

theorem Apart.concat {msg : Message} {delay : Duration} {said : List Utterance} {u : Utterance}
    (h : Apart msg delay said)
    (hlast : u.msg = msg → ∀ a ∈ said, a.msg = msg → a.time.nanos + delay.nanos ≤ u.time.nanos) :
    Apart msg delay (said ++ [u]) := by
  refine List.pairwise_append.2 ⟨h, List.pairwise_singleton _ _, fun a ha b hb hmsg hsame => ?_⟩
  obtain rfl := List.mem_singleton.1 hb
  exact hlast hsame a ha hmsg

/-- What keeps a session in time. -/
structure Spaced (pace : Pace) (created : Instant) (j : Journal) : Prop where
  settled : j.session.Settled
  pace_eq : j.session.pace = pace
  timer : j.session.timer = ⟨(due pace created j.said).1, some (due pace created j.said).2⟩
  /-- Nothing but questions is said before the public address is known. -/
  asking : j.session.publicAddr = none → ∀ u ∈ j.said, u.msg = .stunRequest
  known : ∀ u ∈ j.said, u.msg = .stunRequest ∨ u.msg = .keepAlive ∨ ∃ own, u.msg = .connect own
  apart : ∀ msg, 0 < (pace.silence msg).nanos → Apart msg (pace.silence msg) j.said
  /-- A message that is repeated next was last said when the timer was set, or before. -/
  latest : ∀ msg, 0 < (pace.silence msg).nanos → j.session.refrain = msg →
    ∀ u ∈ j.said, u.msg = msg →
      u.time.nanos ≤ j.session.timer.started.nanos ∧
        j.session.timer.limit = some (pace.silence msg)

theorem spaced_first (coordinator : SocketAddr) (localAddr : SocketV4) (pace : Pace)
    (created : Instant) : Spaced pace created ⟨.start coordinator localAddr pace created, []⟩ where
  settled := Session.settled_start coordinator localAddr pace created
  pace_eq := rfl
  timer := rfl
  asking := nofun
  known := nofun
  apart := fun _ _ => List.Pairwise.nil
  latest := nofun

/-- What is said when the timer has run out comes a while after all that was said of its kind. -/
theorem Spaced.after_silence {pace : Pace} {created : Instant} {j : Journal}
    (h : Spaced pace created j) {now : Instant} (hdue : j.session.timer.ranOut now = true)
    {msg : Message} (hpace : 0 < (pace.silence msg).nanos) (hmsg : j.session.refrain = msg)
    {u : Utterance} (hu : u ∈ j.said) (hsame : u.msg = msg) :
    u.time.nanos + (pace.silence msg).nanos ≤ now.nanos := by
  obtain ⟨htime, hlimit⟩ := h.latest msg hpace hmsg u hu hsame
  obtain ⟨limit, hset, hlong⟩ := (Timer.ranOut_iff _ _).1 hdue
  obtain rfl : pace.silence msg = limit := Option.some.inj (hlimit.symm.trans hset)
  omega

/-- The journal notes what the change makes the session say. -/
theorem said_record {j : Journal} (h : j.session.Settled) (change : Change) :
    (j.record change).said = j.said ++ (j.session.utterance change).toList := by
  have hspeaks := h.speaks change
  rw [record, hspeaks.put]
  cases hspoken : j.session.utterance change with
  | none => cases change.time? <;> rfl
  | some u =>
      rw [hspeaks.time u hspoken]
      rfl

/-- A session repeats the same message until it is told its address. -/
theorem refrain_change {s : Session} {change : Change}
    (h : (s.change change).publicAddr = s.publicAddr) : (s.change change).refrain = s.refrain := by
  rw [Session.refrain, h, Session.refrain]

theorem refrain_cases (s : Session) : s.refrain = .stunRequest ∨ s.refrain = .keepAlive := by
  unfold Session.refrain
  split
  · exact .inl rfl
  · exact .inr rfl

/-- A change keeps a session in time: nothing is said, or the refrain a while after it was last
said, or the announcement, before which only questions were said. -/
theorem Spaced.record {pace : Pace} {created : Instant} {j : Journal}
    (h : Spaced pace created j) (change : Change) : Spaced pace created (j.record change) := by
  have hsaid := said_record h.settled change
  have hsession : (j.record change).session = j.session.change change := rfl
  have hsettled : (j.session.change change).Settled := (h.settled.stepped change).settled
  have hspeaks := h.settled.speaks change
  have hpace : (j.session.change change).pace = pace := hspeaks.pace.trans h.pace_eq
  have htimer := hspeaks.timer
  have hoccasion := hspeaks.occasion
  generalize j.session.utterance change = uttered at hsaid htimer hoccasion
  cases hoccasion with
  | none hsame =>
      have hsaid : (j.record change).said = j.said := hsaid.trans (List.append_nil _)
      have htimer : (j.session.change change).timer = j.session.timer := htimer
      refine ⟨hsettled, hpace, ?_, ?_, ?_, ?_, ?_⟩
      · rw [hsession, hsaid, htimer, h.timer]
      · rw [hsession, hsaid, hsame]
        exact h.asking
      · rw [hsaid]
        exact h.known
      · rw [hsaid]
        exact h.apart
      · rw [hsession, hsaid, htimer, refrain_change hsame]
        exact h.latest
  | due now hdue hsame =>
      have hsaid : (j.record change).said = j.said ++ [⟨now, j.session.refrain⟩] := hsaid
      have htimer : (j.session.change change).timer =
          ⟨now, some (pace.silence j.session.refrain)⟩ := h.pace_eq ▸ htimer
      refine ⟨hsettled, hpace, ?_, ?_, ?_, ?_, ?_⟩
      · rw [hsession, hsaid, htimer, due_concat]
      · rw [hsession, hsaid, hsame]
        intro hnone
        exact List.forall_mem_append.2
          ⟨h.asking hnone, List.forall_mem_singleton.2 (if_pos hnone)⟩
      · rw [hsaid]
        exact List.forall_mem_append.2
          ⟨h.known, List.forall_mem_singleton.2 ((refrain_cases j.session).imp_right .inl)⟩
      · rw [hsaid]
        intro msg hlong
        exact (h.apart msg hlong).concat fun hmsg u hu hsame =>
          h.after_silence hdue hlong hmsg hu hsame
      · rw [hsession, hsaid, htimer, refrain_change hsame]
        intro msg hlong hmsg u hu hsame
        refine ⟨?_, by rw [hmsg]⟩
        rcases List.mem_append.1 hu with hold | hnew
        · have hbefore := h.after_silence hdue hlong hmsg hold hsame
          show u.time.nanos ≤ now.nanos
          omega
        · obtain rfl := List.mem_singleton.1 hnew
          exact Nat.le_refl _
  | told now own hnone hsome =>
      have hsaid : (j.record change).said = j.said ++ [⟨now, .connect own⟩] := hsaid
      have htimer : (j.session.change change).timer = ⟨now, some pace.refresh⟩ :=
        h.pace_eq ▸ htimer
      have hasked := h.asking hnone
      refine ⟨hsettled, hpace, ?_, ?_, ?_, ?_, ?_⟩
      · rw [hsession, hsaid, htimer, due_concat]
        rfl
      · rw [hsession]
        exact fun habsent => absurd habsent hsome
      · rw [hsaid]
        exact List.forall_mem_append.2
          ⟨h.known, List.forall_mem_singleton.2 (.inr (.inr ⟨own, rfl⟩))⟩
      · rw [hsaid]
        intro msg hlong
        refine (h.apart msg hlong).concat fun hmsg u hu hsame => ?_
        -- Only questions came before the announcement.
        rw [hasked u hu, ← hmsg] at hsame
        cases hsame
      · rw [hsession, hsaid, htimer]
        intro msg hlong hmsg u hu hsame
        have hrefresh : msg = .keepAlive := hmsg.symm.trans (if_neg hsome)
        -- Neither the questions before nor the announcement are keep-alives.
        rw [hrefresh] at hsame
        rcases List.mem_append.1 hu with hold | hnew
        · rw [hasked u hold] at hsame
          cases hsame
        · obtain rfl := List.mem_singleton.1 hnew
          cases hsame

theorem spaced_after {s : Session} {pace : Pace} {created : Instant}
    (h : Spaced pace created ⟨s, []⟩) (changes : List Change) :
    Spaced pace created (after s changes) := by
  induction changes using List.reverseRecOn with
  | nil => exact h
  | append_singleton changes change ih =>
      rw [after, List.foldl_append]
      exact ih.record change

/-- A journal and a diary are about the same session. -/
theorem session_after (s : Session) (changes : List Change) :
    (after s changes).session = (Diary.after s changes).session := by
  induction changes using List.reverseRecOn with
  | nil => rfl
  | append_singleton changes change ih =>
      rw [after, List.foldl_append, Diary.after_concat]
      exact congrArg (fun s => Session.change s change) ih

/-- How a session speaks, given all that it has said. -/
structure Cadence (coordinator : SocketAddr) (localAddr : SocketV4) (pace : Pace)
    (created : Instant) (j : Journal) : Prop where
  /-- The timer always runs. -/
  armed : ∀ now, j.session.timeout now ≠ none
  known : ∀ u ∈ j.said, u.msg = .stunRequest ∨ u.msg = .keepAlive ∨ ∃ own, u.msg = .connect own
  /-- When the timer is looked at, a datagram is queued if the silence after the last message is
  over, and nothing is queued otherwise. -/
  ticked : ∀ now,
    (j.session.tick now).val.controlQueue = j.session.controlQueue ∧
      (j.session.tick now).val.packetQueue = j.session.packetQueue ++
        if (due pace created j.said).2.nanos ≤ now.nanos - (due pace created j.said).1.nanos then
          [(if j.session.publicAddr = none then .stunRequest else .keepAlive, coordinator)]
        else []
  /-- A packet that tells the session its address makes it announce itself. -/
  told : ∀ change observed, j.session.Told observed change →
    j.session.put change = [.connect ⟨observed, localAddr⟩]
  /-- Anything else neither queues a message nor moves the timer. -/
  still : ∀ change, (∀ now, change ≠ .tick now) → (∀ observed, ¬ j.session.Told observed change) →
    j.session.put change = [] ∧ (j.session.change change).timer = j.session.timer

theorem Spaced.keeps_cadence {coordinator : SocketAddr} {localAddr : SocketV4} {pace : Pace}
    {created : Instant} {j : Journal} (h : Spaced pace created j)
    (hcoordinator : j.session.coordinator = coordinator)
    (hlocal : j.session.localAddr = localAddr) :
    Cadence coordinator localAddr pace created j := by
  refine ⟨?_, h.known, ?_, ?_, ?_⟩
  · intro now
    rw [Session.timeout, h.timer]
    exact nofun
  · intro now
    have hdue : j.session.timer.ranOut now = true ↔
        (due pace created j.said).2.nanos ≤ now.nanos - (due pace created j.said).1.nanos := by
      rw [Timer.ranOut_iff, h.timer]
      simp
    rw [h.settled.tick_eq]
    by_cases hover : j.session.timer.ranOut now = true
    · rw [if_pos hover, if_pos (hdue.1 hover), ← hcoordinator]
      exact ⟨rfl, rfl⟩
    · rw [if_neg hover, if_neg (mt hdue.2 hover), List.append_nil]
      exact ⟨rfl, rfl⟩
  · rintro _ observed ⟨hphase, now, rfl⟩
    rw [(h.settled.speaks _).put]
    simp [Session.utterance, hphase, hlocal]
  · intro change htick htold
    have hspeaks := h.settled.speaks change
    have hsilent := Session.utterance_eq_none htick htold
    rw [hspeaks.put, hspeaks.timer, hsilent]
    exact ⟨rfl, rfl⟩

theorem silence_pos {pace : Pace} (hretry : 0 < pace.retry.nanos)
    (hrefresh : 0 < pace.refresh.nanos) (msg : Message) : 0 < (pace.silence msg).nanos := by
  cases msg <;> assumption

/-- After a tick there is time left: the timer had not run out, or was set anew. -/
theorem Spaced.timeout_tick {pace : Pace} {created : Instant} {j : Journal}
    (h : Spaced pace created j) (hretry : 0 < pace.retry.nanos)
    (hrefresh : 0 < pace.refresh.nanos) (now : Instant) :
    ∃ left, (j.session.tick now).val.timeout now = some left ∧ 0 < left.nanos := by
  rw [h.settled.tick_eq, h.pace_eq]
  by_cases hover : j.session.timer.ranOut now = true
  · rw [if_pos hover]
    refine ⟨⟨(pace.silence j.session.refrain).nanos - (now.nanos - now.nanos)⟩, rfl, ?_⟩
    rw [Nat.sub_self]
    exact silence_pos hretry hrefresh _
  · rw [if_neg hover, Session.timeout]
    simp only [Timer.ranOut_iff, h.timer, Option.some.injEq, exists_eq_left', Nat.not_le] at hover
    rw [h.timer]
    refine ⟨⟨_⟩, rfl, Nat.sub_pos_of_lt ?_⟩
    exact hover

/-- **A session speaks in time.** However a session is used, and whenever: its timer always runs,
since the last message that it put into a queue and for as long as that message says, and at
first it is due at once. A tick queues one datagram for the coordinator if that time is over, a
question while the public address is not known and a keep-alive from then on, and else nothing.
Nothing but a tick and the announcement moves the timer. So questions are as far apart as a
session waits for an answer, and keep-alives as far as it is silent in between; and after a tick
there is time left. -/
theorem cadence (coordinator : SocketAddr) (localAddr : SocketV4) (pace : Pace)
    (created : Instant) (changes : List Change) :
    let j := after (.start coordinator localAddr pace created) changes
    Cadence coordinator localAddr pace created j ∧
      (0 < pace.retry.nanos → Apart .stunRequest pace.retry j.said) ∧
      (0 < pace.refresh.nanos → Apart .keepAlive pace.refresh j.said) ∧
      (0 < pace.retry.nanos → 0 < pace.refresh.nanos → ∀ now,
        ∃ left, (j.session.tick now).val.timeout now = some left ∧ 0 < left.nanos) := by
  intro j
  have h := spaced_after (spaced_first coordinator localAddr pace created) changes
  have hfollows := (Diary.sound_after
    (Diary.sound_first coordinator localAddr pace created) changes).follows
  rw [← session_after] at hfollows
  exact ⟨h.keeps_cadence hfollows.coordinator hfollows.localAddr, h.apart .stunRequest,
    h.apart .keepAlive, h.timeout_tick⟩

/-- A session that asks twice before it is answered, and is looked at again too early. -/
theorem cadence_two_questions :
    let coordinator : SocketAddr := .v4 ⟨⟨0xc0000201⟩, 8081⟩
    let j := after (.start coordinator ⟨⟨0xc0a80164⟩, 5000⟩ .default ⟨0⟩)
      [.tick ⟨7⟩, .tick ⟨100000000⟩, .tick ⟨200000007⟩,
        .packet (.stunResponse ⟨⟨0xcb007105⟩, 40000⟩) coordinator ⟨250000000⟩,
        .tick ⟨5250000000⟩, .tick ⟨10250000000⟩]
    j.said.map Utterance.msg = [.stunRequest, .stunRequest,
        .connect ⟨⟨⟨0xcb007105⟩, 40000⟩, ⟨⟨0xc0a80164⟩, 5000⟩⟩, .keepAlive, .keepAlive] ∧
      Apart .stunRequest (.ofMillis 200) j.said ∧ Apart .keepAlive (.ofSecs 5) j.said ∧
      ∃ left, (j.session.tick ⟨0⟩).val.timeout ⟨0⟩ = some left ∧ 0 < left.nanos := by
  intro coordinator j
  obtain ⟨-, hasks, hrefreshes, hleft⟩ := cadence coordinator ⟨⟨0xc0a80164⟩, 5000⟩ .default ⟨0⟩
    [.tick ⟨7⟩, .tick ⟨100000000⟩, .tick ⟨200000007⟩,
      .packet (.stunResponse ⟨⟨0xcb007105⟩, 40000⟩) coordinator ⟨250000000⟩,
      .tick ⟨5250000000⟩, .tick ⟨10250000000⟩]
  exact ⟨by decide, hasks (by decide), hrefreshes (by decide),
    hleft (by decide) (by decide) ⟨0⟩⟩

end Journal
end Rendezvous
