import Rendezvous.Proofs.Peer.Diary

/-!
# Rendezvous.Proofs.Peer.Strays

**What a session has no use for leaves no trace.** Anybody can send a packet to a session, and
what it waits for may come late, twice or on the wrong connection. A `Diary.Stray` is such a
message, told apart by who sent it, by what it is, and by what has been seen of the session so
far. `Diary.DifferInStrays` relates two runs of which each may have strays where the other has
none.

A stray leaves the diary as it is (`Diary.Sound.record_stray`). So two runs that differ in
strays end with the same diary (`Diary.after_eq_of_strays`): the same session, timer and queues
included, and the same history of what went into the queues and out of them.
-/

namespace Rendezvous
namespace Diary

open Session (Change)

/-- A message that a session with this diary has no use for. -/
inductive Stray (d : Diary) : Change → Prop where
  /-- A packet that is not from the coordinator. -/
  | foreign (msg : Message) {sender : SocketAddr} (now : Instant)
      (hsender : sender ≠ d.session.coordinator) : Stray d (.packet msg sender now)
  /-- A packet that tells no address. -/
  | pointless {msg : Message} (sender : SocketAddr) (now : Instant)
      (hmsg : ∀ observed, msg ≠ .stunResponse observed) : Stray d (.packet msg sender now)
  /-- An answer of the coordinator while none is awaited. -/
  | late (observed : SocketV4) (now : Instant)
      (hphase : d.session.phase ≠ .awaitingStunResponse) :
      Stray d (.packet (.stunResponse observed) d.session.coordinator now)
  /-- A message on the control connection that is no peer list. -/
  | misplaced {msg : Message} (hmsg : ∀ peers, msg ≠ .peersToConnect peers) :
      Stray d (.control msg)
  /-- A peer list before the session has announced itself. -/
  | early (peers : List PeerEntry) (hquiet : ∀ entry, Message.connect entry ∉ d.controlPut) :
      Stray d (.control (.peersToConnect peers))

/-- Two runs, from two diaries on, that differ only in strays: what one of them has and the
other has not is a stray where it is. -/
inductive DifferInStrays : Diary → Diary → List Change → List Change → Prop where
  | nil {d d' : Diary} : DifferInStrays d d' [] []
  | both {d d' : Diary} {changes changes' : List Change} (change : Change)
      (h : DifferInStrays (d.record change) (d'.record change) changes changes') :
      DifferInStrays d d' (change :: changes) (change :: changes')
  | left {d d' : Diary} {changes changes' : List Change} {change : Change}
      (hstray : d.Stray change) (h : DifferInStrays (d.record change) d' changes changes') :
      DifferInStrays d d' (change :: changes) changes'
  | right {d d' : Diary} {changes changes' : List Change} {change : Change}
      (hstray : d'.Stray change) (h : DifferInStrays d (d'.record change) changes changes') :
      DifferInStrays d d' changes (change :: changes')

variable {start : Session} {d : Diary} {change : Change}

/-! ### One stray -/

/-- A message that changes nothing about the session, and is no list that it listens to, is
not noted at all. -/
theorem record_eq_self (hsame : d.session.change change = d.session)
    (hfires : d.session.fires change = false) (hcontrol : d.session.controlTaken change = [])
    (hpacket : d.session.packetTaken change = []) (hheard : d.session.heard change = []) :
    d.record change = d := by
  simp only [record, hsame, hfires, hcontrol, hpacket, hheard, Session.added_self,
    Bool.or_false, List.append_nil]

/-- A session that has not announced itself does not listen. -/
theorem Sound.listens_eq_false (h : Sound start d)
    (hquiet : ∀ entry, Message.connect entry ∉ d.controlPut) :
    d.session.phase.listens = false := by
  have hannounced := h.announced
  rw [← h.settled.publicAddr, Option.isSome_eq_false_iff, Option.isNone_iff_eq_none]
  cases hpublic : d.session.publicAddr with
  | none => rfl
  | some addr =>
      rw [Session.ownEntry, hpublic] at hannounced
      refine absurd ?_ (hquiet ⟨addr, d.session.localAddr⟩)
      rw [hannounced]
      exact List.mem_singleton_self _

/-- A stray leaves a session and its diary as they are. -/
theorem Sound.record_stray (h : Sound start d) (hstray : d.Stray change) :
    d.record change = d := by
  cases hstray with
  | foreign msg now hsender =>
      refine record_eq_self ?_ rfl rfl rfl rfl
      cases msg with
      | stunResponse observed =>
          rw [Session.change, Session.val_onPacket_stunResponse, if_neg]
          rintro ⟨hcoordinator, -⟩
          exact hsender hcoordinator
      | _ => rfl
  | @pointless msg sender now hmsg =>
      refine record_eq_self ?_ rfl rfl rfl rfl
      cases msg with
      | stunResponse observed => exact absurd rfl (hmsg observed)
      | _ => rfl
  | late observed now hphase =>
      refine record_eq_self ?_ rfl rfl rfl rfl
      rw [Session.change, Session.val_onPacket_stunResponse, if_neg]
      rintro ⟨-, hasked⟩
      exact hphase hasked
  | @misplaced msg hmsg =>
      cases msg with
      | peersToConnect peers => exact absurd rfl (hmsg peers)
      | _ => exact record_eq_self rfl rfl rfl rfl rfl
  | early peers hquiet =>
      have hdeaf := h.listens_eq_false hquiet
      refine record_eq_self ?_ rfl rfl rfl ?_
      · rw [Session.change, Session.val_onControl_peersToConnect, hdeaf]
        rfl
      · rw [Session.heard, hdeaf]
        rfl

/-! ### Two runs -/

/-- Runs that differ in strays lead from one diary to one diary. -/
theorem Sound.foldl_record_eq {d' : Diary} {changes changes' : List Change} (h : Sound start d)
    (hdiffer : DifferInStrays d d' changes changes') (hsame : d = d') :
    changes.foldl Diary.record d = changes'.foldl Diary.record d' := by
  induction hdiffer with
  | nil => exact hsame
  | both change _ ih =>
      subst hsame
      exact ih (h.record change) rfl
  | left hstray _ ih =>
      have hidle := h.record_stray hstray
      rw [List.foldl_cons]
      exact ih (hidle.symm ▸ h) (hidle.trans hsame)
  | right hstray _ ih =>
      subst hsame
      have hidle := h.record_stray hstray
      rw [List.foldl_cons]
      exact ih h hidle.symm

/-- **Strays leave no trace.** If two runs of a session, from its creation on, differ only in
strays, wherever and whenever these come, then the session is the same in the end, with its
phase, its public address, its timer, its directory, its candidates and its queues; and what
was ever put into the queues, taken off them and listened to is the same as well. -/
theorem after_eq_of_strays (coordinator : SocketAddr) (localAddr : SocketV4) (pace : Pace)
    (now : Instant) {changes changes' : List Change}
    (h : DifferInStrays (first (.start coordinator localAddr pace now))
      (first (.start coordinator localAddr pace now)) changes changes') :
    after (.start coordinator localAddr pace now) changes =
      after (.start coordinator localAddr pace now) changes' :=
  (sound_first coordinator localAddr pace now).foldl_record_eq h rfl

/-- A stranger answers before the coordinator does, which answers twice and sends a keep-alive;
the first list comes before the session has announced itself. -/
theorem after_eq_of_strays_all_kinds :
    let coordinator : SocketAddr := .v4 ⟨⟨0xc0000201⟩, 8081⟩
    let stranger : SocketAddr := .v4 ⟨⟨0xc6336401⟩, 8081⟩
    let s : Session := .start coordinator ⟨⟨0xc0a80164⟩, 5000⟩ .default ⟨0⟩
    let other : PeerEntry := ⟨⟨⟨0xcb007106⟩, 7⟩, ⟨⟨0x0a000002⟩, 8⟩⟩
    let answer : Change := .packet (.stunResponse ⟨⟨0xcb007105⟩, 40000⟩) coordinator ⟨9⟩
    after s [.tick ⟨7⟩, answer, .takeControl, .control (.peersToConnect [other])] =
      after s [.packet (.stunResponse ⟨⟨0x01020304⟩, 5⟩) coordinator ⟨1⟩, .tick ⟨7⟩,
        .packet (.stunResponse ⟨⟨0x01020304⟩, 5⟩) stranger ⟨8⟩,
        .control (.peersToConnect [other]), answer, answer, .takeControl,
        .packet .keepAlive coordinator ⟨10⟩, .control .keepAlive,
        .control (.peersToConnect [other])] := by
  intro coordinator stranger s other answer
  refine after_eq_of_strays coordinator ⟨⟨0xc0a80164⟩, 5000⟩ .default ⟨0⟩ ?_
  refine .right (.late _ _ (by decide)) (.both _ ?_)
  refine .right (.foreign _ _ (by decide)) (.right (.early _ (fun entry => ?_)) (.both _ ?_))
  · exact List.not_mem_nil
  refine .right (.late _ _ (by decide)) (.both _ ?_)
  exact .right (.pointless _ _ nofun) (.right (.misplaced nofun) (.both _ .nil))

end Diary
end Rendezvous
