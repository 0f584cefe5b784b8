import Rendezvous.Peer.Session

/-!
# Rendezvous.Proofs.Peer.Session

**What a session does, without its log.** Each transition of a session is given as
the plain change of state that it comes down to (`val_enter`, `val_onControl`, …).
Nothing that is fed to a session takes a message out of its queues: they only grow
at their ends (`Grows`).
-/

namespace Rendezvous

/-- Has the session announced itself, so that peer lists count? -/
def Phase.listens : Phase → Bool
  | .awaitingPeerList | .hasPeerList | .connected => true
  | _ => false

namespace Session

/-! ### Transitions as changes of state -/

@[simp] theorem val_enter (s : Session) (next : Phase) :
    (s.enter next).val = { s with phase := next } := by
  unfold enter
  split <;> rfl

@[simp] theorem val_askAddress (s : Session) (now : Instant) :
    (s.askAddress now).val =
      { s.sendPacket .stunRequest now s.pace.retry with phase := .awaitingStunResponse } :=
  val_enter _ _

@[simp] theorem val_refreshBinding (s : Session) (now : Instant) :
    (s.refreshBinding now).val = s.sendPacket .keepAlive now s.pace.refresh := rfl

theorem val_announceSelf (s : Session) (now : Instant) :
    (s.announceSelf now).val =
      match s.publicAddr with
      | none => s
      | some publicAddr =>
        { s with
          controlQueue := s.controlQueue ++ [.connect ⟨publicAddr, s.localAddr⟩]
          timer := ⟨now, some s.pace.refresh⟩
          phase := .awaitingPeerList } := by
  cases hpublic : s.publicAddr <;> simp [announceSelf, hpublic]

/-- Taking in an accepted response announces the address pair. -/
theorem val_onPacket_stunResponse (s : Session) (observed : SocketV4) (sender : SocketAddr)
    (now : Instant) :
    (s.onPacket (.stunResponse observed) sender now).val =
      if sender = s.coordinator ∧ s.phase = .awaitingStunResponse then
        { s with
          publicAddr := some observed
          controlQueue := s.controlQueue ++ [.connect ⟨observed, s.localAddr⟩]
          timer := ⟨now, some s.pace.refresh⟩
          phase := .awaitingPeerList }
      else s := by
  by_cases hsender : sender = s.coordinator
  · by_cases hphase : s.phase = .awaitingStunResponse
    · simp [onPacket, hsender, hphase, val_announceSelf]
    · simp [onPacket, hsender, hphase]
  · simp [onPacket, hsender]

/-! ### Taking in a peer list -/

theorem addCandidate_frame (s : Session) (candidate : Candidate) :
    (s.addCandidate candidate).val =
      { s with candidates := (s.addCandidate candidate).val.candidates } := by
  unfold addCandidate
  split <;> rfl

/-- An entry is noted in the directory unless it is our own or known. -/
theorem directory_learnPeer (ourPublic : SocketV4) (s : Session) (peer : PeerEntry) :
    (learnPeer ourPublic s peer).val.directory =
      if peer = ⟨ourPublic, s.localAddr⟩ ∨ peer ∈ s.directory then s.directory
      else s.directory ++ [peer] := by
  unfold learnPeer
  by_cases h : peer = ⟨ourPublic, s.localAddr⟩ ∨ peer ∈ s.directory
  · rw [if_pos h, if_pos (by simpa using h)]
    rfl
  · rw [if_neg h, if_neg (by simpa using h), addCandidate_frame]

theorem learnPeer_frame (ourPublic : SocketV4) (s : Session) (peer : PeerEntry) :
    (learnPeer ourPublic s peer).val =
      { s with
        directory := (learnPeer ourPublic s peer).val.directory
        candidates := (learnPeer ourPublic s peer).val.candidates } := by
  unfold learnPeer
  split
  · rfl
  · rw [addCandidate_frame]

/-- A session after taking in entries one by one. -/
def learnAll (ourPublic : SocketV4) (s : Session) (peers : List PeerEntry) : Session :=
  peers.foldl (fun s peer => (learnPeer ourPublic s peer).val) s

theorem val_foldlM_learnPeer (ourPublic : SocketV4) (s : Session) (peers : List PeerEntry) :
    (peers.foldlM (learnPeer ourPublic) s).val = learnAll ourPublic s peers := by
  induction peers generalizing s with
  | nil => rfl
  | cons peer peers ih => simp [List.foldlM_cons, ih, learnAll]

theorem learnAll_frame (ourPublic : SocketV4) (s : Session) (peers : List PeerEntry) :
    learnAll ourPublic s peers =
      { s with
        directory := (learnAll ourPublic s peers).directory
        candidates := (learnAll ourPublic s peers).candidates } := by
  induction peers generalizing s with
  | nil => rfl
  | cons peer peers ih =>
      have hstep : learnAll ourPublic s (peer :: peers) =
          learnAll ourPublic (learnPeer ourPublic s peer).val peers := rfl
      rw [hstep, ih, learnPeer_frame]

/-- What a session knows after taking in a peer list: what it knew, and the entries of
the list other than its own. -/
theorem mem_directory_learnAll {ourPublic : SocketV4} {s : Session} {peers : List PeerEntry}
    {peer : PeerEntry} :
    peer ∈ (learnAll ourPublic s peers).directory ↔
      peer ∈ s.directory ∨ (peer ∈ peers ∧ peer ≠ ⟨ourPublic, s.localAddr⟩) := by
  induction peers generalizing s with
  | nil => simp [learnAll]
  | cons first peers ih =>
      have hstep : learnAll ourPublic s (first :: peers) =
          learnAll ourPublic (learnPeer ourPublic s first).val peers := rfl
      have hlocal : (learnPeer ourPublic s first).val.localAddr = s.localAddr := by
        rw [learnPeer_frame]
      rw [hstep, ih, hlocal, directory_learnPeer]
      by_cases hknown : first = ⟨ourPublic, s.localAddr⟩ ∨ first ∈ s.directory
      · rw [if_pos hknown]
        constructor
        · rintro (h | ⟨h, hne⟩)
          · exact .inl h
          · exact .inr ⟨List.mem_cons_of_mem _ h, hne⟩
        · rintro (h | ⟨h, hne⟩)
          · exact .inl h
          · rcases List.mem_cons.mp h with rfl | h
            · exact .inl (hknown.resolve_left hne)
            · exact .inr ⟨h, hne⟩
      · rw [if_neg hknown]
        have hown : first ≠ ⟨ourPublic, s.localAddr⟩ := fun h => hknown (.inl h)
        grind

/-- A peer list changes nothing before the public address is known; afterwards it is
taken in, and the phase tells whether there are candidates. -/
theorem val_learnPeers (s : Session) (peers : List PeerEntry) :
    (s.learnPeers peers).val =
      match s.publicAddr with
      | none => s
      | some ourPublic =>
        let learned := learnAll ourPublic s peers
        { learned with
          phase := if learned.candidates.isEmpty then .hasPeerList else .connected } := by
  cases hpublic : s.publicAddr with
  | none => simp [learnPeers, hpublic]
  | some ourPublic =>
      simp only [learnPeers, hpublic, Logged.val_bind, val_foldlM_learnPeer]
      split <;> simp_all

theorem val_onControl_peersToConnect (s : Session) (peers : List PeerEntry) :
    (s.onControl (.peersToConnect peers)).val =
      if s.phase.listens then (s.learnPeers peers).val else s := by
  unfold onControl
  cases s.phase <;> simp [Phase.listens]

/-- Nothing from the control connection touches the queues. -/
theorem onControl_frame (s : Session) (msg : Message) :
    (s.onControl msg).val =
      { s with
        directory := (s.onControl msg).val.directory
        candidates := (s.onControl msg).val.candidates
        phase := (s.onControl msg).val.phase } := by
  cases msg with
  | peersToConnect peers =>
      rw [val_onControl_peersToConnect]
      split
      · rw [val_learnPeers]
        split
        · rfl
        · simp only
          rw [learnAll_frame]
      · rfl
  | _ => rfl

/-! ### Queues -/

/-- Nothing has been taken out of the queues of a session. -/
structure Grows (s s' : Session) : Prop where
  control : s.controlQueue <+: s'.controlQueue
  packets : s.packetQueue <+: s'.packetQueue

theorem Grows.refl (s : Session) : Grows s s := ⟨List.prefix_rfl, List.prefix_rfl⟩

theorem Grows.trans {a b c : Session} (hab : Grows a b) (hbc : Grows b c) : Grows a c :=
  ⟨hab.control.trans hbc.control, hab.packets.trans hbc.packets⟩

theorem grows_announceSelf (s : Session) (now : Instant) : Grows s (s.announceSelf now).val := by
  rw [val_announceSelf]
  split
  · exact .refl s
  · exact ⟨List.prefix_append .., List.prefix_rfl⟩

theorem grows_tick (s : Session) (now : Instant) : Grows s (s.tick now).val := by
  unfold tick
  split
  · unfold fire
    cases s.phase with
    | unknownSelf => simpa using ⟨List.prefix_rfl, List.prefix_append ..⟩
    | awaitingStunResponse => simpa using ⟨List.prefix_rfl, List.prefix_append ..⟩
    | knownSelf => exact grows_announceSelf s now
    | awaitingPeerList => exact ⟨List.prefix_rfl, List.prefix_append ..⟩
    | hasPeerList => exact ⟨List.prefix_rfl, List.prefix_append ..⟩
    | connected => exact ⟨List.prefix_rfl, List.prefix_append ..⟩
  · exact .refl s

theorem grows_onPacket (s : Session) (msg : Message) (sender : SocketAddr) (now : Instant) :
    Grows s (s.onPacket msg sender now).val := by
  cases msg with
  | stunResponse observed =>
      rw [val_onPacket_stunResponse]
      split
      · exact ⟨List.prefix_append .., List.prefix_rfl⟩
      · exact .refl s
  | _ => exact .refl s

theorem grows_onControl (s : Session) (msg : Message) : Grows s (s.onControl msg).val := by
  rw [onControl_frame]
  exact ⟨List.prefix_rfl, List.prefix_rfl⟩

/-! ### What is queued for the control connection -/

/-- The address pair that a session announces, once it knows its public address. -/
def ownEntry (s : Session) : Option PeerEntry :=
  s.publicAddr.map fun publicAddr => ⟨publicAddr, s.localAddr⟩

/-- What a session queues when its timer is looked at. -/
def tickMail (s : Session) (now : Instant) : List Message :=
  if s.timer.ranOut now ∧ s.phase = .knownSelf then (s.ownEntry.map Message.connect).toList else []

/-- What a session queues when it takes a message from the packet socket. -/
def packetMail (s : Session) (msg : Message) (sender : SocketAddr) : List Message :=
  match msg with
  | .stunResponse observed =>
    if sender = s.coordinator ∧ s.phase = .awaitingStunResponse then
      [.connect ⟨observed, s.localAddr⟩]
    else
      []
  | _ => []

theorem controlQueue_tick (s : Session) (now : Instant) :
    (s.tick now).val.controlQueue = s.controlQueue ++ s.tickMail now := by
  unfold tick tickMail
  by_cases hdue : s.timer.ranOut now = true
  · rw [if_pos hdue]
    unfold fire
    cases hphase : s.phase with
    | knownSelf =>
        simp only [hdue, val_announceSelf, ownEntry]
        cases s.publicAddr <;> simp
    | _ => simp [sendPacket]
  · simp [hdue]

theorem controlQueue_onPacket (s : Session) (msg : Message) (sender : SocketAddr)
    (now : Instant) :
    (s.onPacket msg sender now).val.controlQueue = s.controlQueue ++ s.packetMail msg sender := by
  cases msg with
  | stunResponse observed =>
      rw [val_onPacket_stunResponse, packetMail]
      split <;> simp
  | _ => exact (List.append_nil _).symm

theorem controlQueue_onControl (s : Session) (msg : Message) :
    (s.onControl msg).val.controlQueue = s.controlQueue := by
  rw [onControl_frame]

/-- All that a session queues are announcements. -/
theorem mem_tickMail {s : Session} {now : Instant} {msg : Message} (h : msg ∈ s.tickMail now) :
    ∃ entry, msg = .connect entry := by
  unfold tickMail at h
  split at h
  · obtain ⟨entry, -, rfl⟩ := Option.map_eq_some_iff.1 (Option.mem_toList.1 h)
    exact ⟨entry, rfl⟩
  · cases h

theorem mem_packetMail {s : Session} {msg reply : Message} {sender : SocketAddr}
    (h : reply ∈ s.packetMail msg sender) : ∃ entry, reply = .connect entry := by
  cases msg with
  | stunResponse observed =>
      simp only [packetMail] at h
      split at h
      · exact ⟨_, List.mem_singleton.1 h⟩
      · cases h
  | _ => cases h

/-! ### Before and after the announcement -/

/-- The session has not announced itself. -/
structure Unannounced (s : Session) : Prop where
  phase : s.phase = .unknownSelf ∨ s.phase = .awaitingStunResponse
  publicAddr : s.publicAddr = none
  control : s.controlQueue = []
  directory : s.directory = []

/-- The session has announced itself, and takes in peer lists from then on. -/
structure Announced (s : Session) (own : PeerEntry) : Prop where
  listens : s.phase.listens = true
  own : s.ownEntry = some own

theorem unannounced_start (coordinator : SocketAddr) (localAddr : SocketV4) (pace : Pace)
    (now : Instant) : (start coordinator localAddr pace now).Unannounced :=
  ⟨.inl rfl, rfl, rfl, rfl⟩

theorem Unannounced.ownEntry_eq {s : Session} (h : s.Unannounced) : s.ownEntry = none := by
  simp [ownEntry, h.publicAddr]

theorem Unannounced.tick {s : Session} (h : s.Unannounced) (now : Instant) :
    (s.tick now).val.Unannounced := by
  unfold Session.tick
  split
  · unfold fire
    rcases h.phase with hphase | hphase
    · simp only [hphase, val_askAddress]
      exact ⟨.inr rfl, h.publicAddr, h.control, h.directory⟩
    · simp only [hphase, Logged.val_bind, val_enter, val_askAddress]
      exact ⟨.inr rfl, h.publicAddr, h.control, h.directory⟩
  · exact h

/-- The timer of a session that has announced itself only refreshes the binding. -/
theorem Announced.tick {s : Session} {own : PeerEntry} (h : s.Announced own) (now : Instant) :
    (s.tick now).val.Announced own ∧ (s.tick now).val.controlQueue = s.controlQueue ∧
      (s.tick now).val.directory = s.directory := by
  unfold Session.tick
  split
  · unfold fire
    have hlistens := h.listens
    cases hphase : s.phase with
    | unknownSelf => simp [hphase, Phase.listens] at hlistens
    | awaitingStunResponse => simp [hphase, Phase.listens] at hlistens
    | knownSelf => simp [hphase, Phase.listens] at hlistens
    | awaitingPeerList => exact ⟨⟨hlistens, h.own⟩, rfl, rfl⟩
    | hasPeerList => exact ⟨⟨hlistens, h.own⟩, rfl, rfl⟩
    | connected => exact ⟨⟨hlistens, h.own⟩, rfl, rfl⟩
  · exact ⟨h, rfl, rfl⟩

/-- A packet leaves a session as it is, or tells it its address: then it announces itself. -/
theorem Unannounced.onPacket {s : Session} (h : s.Unannounced) (msg : Message)
    (sender : SocketAddr) (now : Instant) :
    (s.onPacket msg sender now).val.Unannounced ∨
      ∃ own, (s.onPacket msg sender now).val.Announced own ∧
        (s.onPacket msg sender now).val.controlQueue = [.connect own] ∧
          (s.onPacket msg sender now).val.directory = [] := by
  cases msg with
  | stunResponse observed =>
      rw [val_onPacket_stunResponse]
      split
      · refine .inr ⟨⟨observed, s.localAddr⟩, ⟨rfl, rfl⟩, ?_, h.directory⟩
        simp [h.control]
      · exact .inl h
  | _ => exact .inl h

theorem Announced.onPacket {s : Session} {own : PeerEntry} (h : s.Announced own) (msg : Message)
    (sender : SocketAddr) (now : Instant) : (s.onPacket msg sender now).val = s := by
  cases msg with
  | stunResponse observed =>
      rw [val_onPacket_stunResponse, if_neg]
      rintro ⟨-, hphase⟩
      have hlistens := h.listens
      simp [hphase, Phase.listens] at hlistens
  | _ => rfl

/-- A session that has announced itself ignores no peer list: it notes every entry but its
own. -/
theorem Announced.onControl {s : Session} {own : PeerEntry} (h : s.Announced own)
    (entries : List PeerEntry) :
    (s.onControl (.peersToConnect entries)).val.Announced own ∧
      ∀ entry, entry ∈ (s.onControl (.peersToConnect entries)).val.directory ↔
        entry ∈ s.directory ∨ (entry ∈ entries ∧ entry ≠ own) := by
  obtain ⟨ourPublic, hpublic, rfl⟩ := Option.map_eq_some_iff.1 h.own
  rw [val_onControl_peersToConnect, if_pos h.listens, val_learnPeers]
  simp only [hpublic]
  refine ⟨⟨?_, ?_⟩, fun entry => mem_directory_learnAll⟩
  · split <;> rfl
  · rw [learnAll_frame]
    exact h.own

end Session
end Rendezvous
