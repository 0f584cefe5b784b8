import Mathlib.Data.List.Nodup
import Rendezvous.Proofs.Peer.Diary

/-!
# Rendezvous.Proofs.Peer.Directory

**What a session makes of the peer lists it hears.** The directory and the candidates are
kept up entry by entry, each with its own test for what is already there. They come to two
functions of the entries heard: `others` drops our own entry and every later occurrence of
the same one, `firstByTarget` every later candidate for the same target.

* `others_concat` and `firstByTarget_concat` say what one more entry adds; the two tests of
  `learnPeer` are the same, so `Knows` is kept entry by entry (`Knows.learnPeer`), through a
  peer list (`Knows.learnAll`) and through a life (`Indexed.record`).
* Nothing else a session does touches what it knows of other peers (`Unmoved`).
* `Diary.catalogued` is the outcome, with what follows for two sessions that hear the same
  entries in other pieces, more often or in another order.
-/

namespace Rendezvous

/-! ### Keeping first occurrences -/

section FirstOccurrences

variable {α : Type}

/-- Of a list with one more element, the element is kept if nothing kept so far equals it. -/
theorem eraseDupsBy_concat (r : α → α → Bool) (xs : List α) (x : α) :
    (xs ++ [x]).eraseDupsBy r =
      if (xs.eraseDupsBy r).any (r x) then xs.eraseDupsBy r else xs.eraseDupsBy r ++ [x] := by
  suffices h : ∀ kept, List.eraseDupsBy.loop r (xs ++ [x]) kept =
      bif (List.eraseDupsBy.loop r xs kept).any (r x) then List.eraseDupsBy.loop r xs kept
      else List.eraseDupsBy.loop r xs kept ++ [x] from (h []).trans (cond_eq_ite ..)
  induction xs with
  | nil =>
      intro kept
      cases h : kept.any (r x) <;> simp [List.eraseDupsBy.loop, h]
  | cons first xs ih =>
      intro kept
      simp only [List.cons_append, List.eraseDupsBy.loop]
      cases kept.any (r first) with
      | true => exact ih kept
      | false => exact ih (first :: kept)

theorem eraseDups_concat [BEq α] [LawfulBEq α] (xs : List α) (x : α) :
    (xs ++ [x]).eraseDups = if x ∈ xs then xs.eraseDups else xs.eraseDups ++ [x] := by
  by_cases h : x ∈ xs
  · simp [List.eraseDups_append, List.removeAll, h]
  · simp [List.eraseDups_append, List.removeAll, h, List.eraseDups_cons]

/-- What is left out can be left out before or after. -/
theorem eraseDups_filter [BEq α] [LawfulBEq α] (p : α → Bool) (xs : List α) :
    (xs.filter p).eraseDups = xs.eraseDups.filter p := by
  induction xs using List.reverseRecOn with
  | nil => rfl
  | append_singleton xs x ih =>
      rw [List.filter_append, eraseDups_concat]
      by_cases hp : p x
      · rw [List.filter_cons_of_pos hp, List.filter_nil, eraseDups_concat, ih]
        simp only [List.mem_filter, hp, and_true]
        split
        · rfl
        · rw [List.filter_append, List.filter_cons_of_pos hp, List.filter_nil]
      · rw [List.filter_cons_of_neg hp, List.filter_nil, List.append_nil, ih]
        split
        · rfl
        · rw [List.filter_append, List.filter_cons_of_neg hp, List.filter_nil, List.append_nil]

end FirstOccurrences

/-- The entries other than our own, each where it comes first. -/
def others (own : PeerEntry) (entries : List PeerEntry) : List PeerEntry :=
  (entries.filter fun entry => entry ≠ own).eraseDups

/-- The candidates of which none before has the same target. -/
def firstByTarget (candidates : List Candidate) : List Candidate :=
  candidates.eraseDupsBy fun candidate known => candidate.target = known.target

@[simp] theorem mem_others {own : PeerEntry} {entries : List PeerEntry} {entry : PeerEntry} :
    entry ∈ others own entries ↔ entry ∈ entries ∧ entry ≠ own := by
  simp [others]

theorem others_concat (own : PeerEntry) (entries : List PeerEntry) (entry : PeerEntry) :
    others own (entries ++ [entry]) =
      if entry = own ∨ entry ∈ others own entries then others own entries
      else others own entries ++ [entry] := by
  by_cases hown : entry = own
  · simp [others, hown]
  · simp [others, hown, eraseDups_concat]

/-- Only the first occurrences of the entries matter. -/
theorem others_eraseDups (own : PeerEntry) {entries entries' : List PeerEntry}
    (h : entries.eraseDups = entries'.eraseDups) : others own entries = others own entries' := by
  rw [others, others, eraseDups_filter, eraseDups_filter, h]

theorem firstByTarget_concat (candidates : List Candidate) (candidate : Candidate) :
    firstByTarget (candidates ++ [candidate]) =
      if candidate.target ∈ (firstByTarget candidates).map Candidate.target then
        firstByTarget candidates
      else firstByTarget candidates ++ [candidate] := by
  rw [firstByTarget, eraseDupsBy_concat]
  refine if_congr ?_ rfl rfl
  simp only [firstByTarget, List.any_eq_true, List.mem_map, decide_eq_true_eq]
  exact exists_congr fun known => and_congr_right fun _ => eq_comm

theorem nodup_targets (candidates : List Candidate) :
    ((firstByTarget candidates).map Candidate.target).Nodup := by
  induction candidates using List.reverseRecOn with
  | nil => exact List.nodup_nil
  | append_singleton candidates candidate ih =>
      rw [firstByTarget_concat]
      split
      · exact ih
      next hnew =>
        rw [List.map_append, List.map_singleton]
        exact List.nodup_append.2 ⟨ih, List.nodup_singleton _, by simpa using hnew⟩

/-- No target is lost. -/
@[simp] theorem mem_targets {candidates : List Candidate} {target : SocketV4} :
    target ∈ (firstByTarget candidates).map Candidate.target ↔
      target ∈ candidates.map Candidate.target := by
  induction candidates using List.reverseRecOn with
  | nil => rfl
  | append_singleton candidates candidate ih =>
      rw [firstByTarget_concat, List.map_append, List.mem_append, ← ih]
      split
      next hknown =>
        rw [List.map_singleton, List.mem_singleton, iff_self_or]
        rintro rfl
        exact hknown
      next => rw [List.map_append, List.mem_append]

theorem firstByTarget_eq_nil {candidates : List Candidate} :
    firstByTarget candidates = [] ↔ candidates = [] := by
  cases candidates <;> simp [firstByTarget, List.eraseDupsBy_cons]

namespace Session

variable {s s' : Session}

/-! ### Taking in entries -/

/-- What a session knows after it has heard these entries, given its public address. -/
structure Knows (ourPublic : SocketV4) (s : Session) (entries : List PeerEntry) : Prop where
  directory : s.directory = others ⟨ourPublic, s.localAddr⟩ entries
  candidates : s.candidates = firstByTarget (s.directory.map (candidateFor ourPublic))

theorem val_learnPeer (ourPublic : SocketV4) (s : Session) (peer : PeerEntry) :
    (learnPeer ourPublic s peer).val =
      if peer = ⟨ourPublic, s.localAddr⟩ ∨ peer ∈ s.directory then s
      else
        { s with
          directory := s.directory ++ [peer]
          candidates :=
            if (candidateFor ourPublic peer).target ∈ s.candidates.map Candidate.target then
              s.candidates
            else s.candidates ++ [candidateFor ourPublic peer] } := by
  unfold learnPeer addCandidate
  by_cases h : peer = ⟨ourPublic, s.localAddr⟩ ∨ peer ∈ s.directory
  · rw [if_pos h, if_pos (by simpa using h)]
    rfl
  · rw [if_neg h, if_neg (by simpa using h)]
    by_cases hknown : (candidateFor ourPublic peer).target ∈ s.candidates.map Candidate.target
    · rw [if_pos hknown, if_pos (by simpa using hknown)]
      rfl
    · rw [if_neg hknown, if_neg (by simpa using hknown)]
      rfl

/-- An entry that is our own or known already stands for no new candidate; any other is
noted, whether or not its target is. -/
theorem Knows.learnPeer {ourPublic : SocketV4} {entries : List PeerEntry}
    (h : Knows ourPublic s entries) (peer : PeerEntry) :
    Knows ourPublic (learnPeer ourPublic s peer).val (entries ++ [peer]) := by
  rw [val_learnPeer]
  split
  next hknown =>
    refine ⟨?_, h.candidates⟩
    rw [others_concat, ← h.directory, if_pos hknown]
  next hnew =>
    refine ⟨?_, ?_⟩
    · rw [others_concat, ← h.directory, if_neg hnew]
    · rw [List.map_append, List.map_singleton, firstByTarget_concat, ← h.candidates]

theorem Knows.learnAll {ourPublic : SocketV4} {entries : List PeerEntry}
    (h : Knows ourPublic s entries) (peers : List PeerEntry) :
    Knows ourPublic (learnAll ourPublic s peers) (entries ++ peers) := by
  induction peers generalizing s entries with
  | nil => exact (List.append_nil entries).symm ▸ h
  | cons peer peers ih =>
      rw [List.append_cons]
      exact ih (h.learnPeer peer)

theorem Knows.candidates_eq_nil {ourPublic : SocketV4} {entries : List PeerEntry}
    (h : Knows ourPublic s entries) : s.candidates = [] ↔ s.directory = [] := by
  rw [h.candidates, firstByTarget_eq_nil, List.map_eq_nil_iff]

/-! ### What leaves the directory alone -/

/-- What a session knows of other peers is the same. -/
structure Unmoved (s s' : Session) : Prop where
  directory : s'.directory = s.directory
  candidates : s'.candidates = s.candidates
  connected : s'.phase = .connected ↔ s.phase = .connected
  hasPeerList : s'.phase = .hasPeerList ↔ s.phase = .hasPeerList

theorem Unmoved.refl (s : Session) : Unmoved s s := ⟨rfl, rfl, .rfl, .rfl⟩

/-- A change brings a peer list that is listened to, or none. -/
theorem heard_cases (s : Session) (change : Change) :
    s.heard change = [] ∨
      ∃ peers, change = .control (.peersToConnect peers) ∧ s.phase.listens = true ∧
        s.heard change = [peers] := by
  cases change with
  | control msg =>
      cases msg with
      | peersToConnect peers =>
          cases hlistens : s.phase.listens with
          | false => exact .inl (by simp [heard, hlistens])
          | true => exact .inr ⟨peers, rfl, rfl, by simp [heard, hlistens]⟩
      | _ => exact .inl rfl
  | _ => exact .inl rfl

/-- A session that hears no peer list in a change knows what it knew. -/
theorem Settled.unmoved (h : s.Settled) {change : Change} (hquiet : s.heard change = []) :
    Unmoved s (s.change change) := by
  cases change with
  | tick now =>
      simp only [Session.change, val_tick h.phase_ne]
      split
      · split
        · exact ⟨rfl, rfl, .rfl, .rfl⟩
        next hdeaf =>
          refine ⟨rfl, rfl, ?_, ?_⟩ <;> cases hphase : s.phase <;> simp_all [Phase.listens]
      · exact .refl s
  | packet msg sender now =>
      cases msg with
      | stunResponse observed =>
          simp only [Session.change, val_onPacket_stunResponse]
          split
          next hasked => exact ⟨rfl, rfl, by simp [hasked.2], by simp [hasked.2]⟩
          next => exact .refl s
      | _ => exact .refl s
  | control msg =>
      cases msg with
      | peersToConnect peers =>
          have hdeaf : s.phase.listens = false := by simpa [heard] using hquiet
          simp only [Session.change, val_onControl_peersToConnect, hdeaf]
          exact .refl s
      | _ => exact .refl s
  | takeControl => exact ⟨rfl, rfl, .rfl, .rfl⟩
  | takePacket => exact ⟨rfl, rfl, .rfl, .rfl⟩

end Session

namespace Diary

open Session (Change)

/-! ### Through a whole life -/

/-- What a session has learnt of other peers is what it has made of the lists in its diary. -/
structure Indexed (d : Diary) : Prop where
  unknown : d.session.publicAddr = none → d.lists = [] ∧ d.session.directory = [] ∧
    d.session.candidates = []
  knows : ∀ ourPublic, d.session.publicAddr = some ourPublic →
    d.session.Knows ourPublic d.lists.flatten
  connected : d.session.phase = .connected ↔ d.session.directory ≠ []
  hasPeerList : d.session.phase = .hasPeerList ↔ d.lists ≠ [] ∧ d.session.directory = []

theorem indexed_first (coordinator : SocketAddr) (localAddr : SocketV4) (pace : Pace)
    (now : Instant) : Indexed (first (.start coordinator localAddr pace now)) where
  unknown := fun _ => ⟨rfl, rfl, rfl⟩
  knows := nofun
  connected := by simp [first, Session.start]
  hasPeerList := by simp [first, Session.start]

/-- A peer list that is listened to is taken in whole, after the ones before. -/
theorem Indexed.record_list {d : Diary} (h : Indexed d) (hs : d.session.Settled)
    {peers : List PeerEntry} (hlistens : d.session.phase.listens = true)
    (hheard : d.session.heard (.control (.peersToConnect peers)) = [peers]) :
    Indexed (d.record (.control (.peersToConnect peers))) := by
  obtain ⟨ourPublic, hpublic⟩ := Option.isSome_iff_exists.1 (hs.publicAddr.trans hlistens)
  have hknows := (h.knows ourPublic hpublic).learnAll peers
  have hnobody := hknows.candidates_eq_nil
  have hsession : (d.record (.control (.peersToConnect peers))).session =
      { Session.learnAll ourPublic d.session peers with
        phase := if (Session.learnAll ourPublic d.session peers).candidates.isEmpty then
          .hasPeerList else .connected } := by
    simp only [record, Session.change, Session.val_onControl_peersToConnect, hlistens,
      Session.val_learnPeers, hpublic, if_true]
  have hlists : (d.record (.control (.peersToConnect peers))).lists = d.lists ++ [peers] := by
    simp only [record, hheard]
  refine ⟨?_, ?_, ?_, ?_⟩
  · rw [hsession, Session.learnAll_frame]
    simp [hpublic]
  · intro addr haddr
    have hsame : addr = ourPublic := by
      rw [hsession, Session.learnAll_frame] at haddr
      simpa [hpublic, eq_comm] using haddr
    rw [hsame, hsession, hlists, List.flatten_append, List.flatten_singleton]
    exact ⟨hknows.directory, hknows.candidates⟩
  · rw [hsession]
    simp only [List.isEmpty_iff, hnobody]
    split <;> simp_all
  · rw [hsession, hlists]
    simp only [List.isEmpty_iff, hnobody]
    split <;> simp_all

/-- What a session knows stays as it is when it hears no list; if it learns its own address
then, it knows nothing of others yet. -/
theorem Indexed.record_quiet {d : Diary} (h : Indexed d) (hs : d.session.Settled)
    {change : Change} (hheard : d.session.heard change = []) : Indexed (d.record change) := by
  have hsame := hs.unmoved hheard
  have hlists : (d.record change).lists = d.lists := by simp [record, hheard]
  have hstep := hs.stepped change
  refine ⟨?_, ?_, ?_, ?_⟩
  · intro hnone
    have hbefore : d.session.publicAddr = none := by
      rcases hstep.address with ⟨observed, -, -, hsome, -⟩ | ⟨-, hpublic, -⟩
      · cases hsome.symm.trans hnone
      · exact hpublic.symm.trans hnone
    rw [hlists]
    exact ⟨(h.unknown hbefore).1, hsame.directory.trans (h.unknown hbefore).2.1,
      hsame.candidates.trans (h.unknown hbefore).2.2⟩
  · intro ourPublic hpublic
    have hlocal : (d.record change).session.localAddr = d.session.localAddr :=
      hstep.follows.localAddr
    rw [hlists]
    rcases (hstep.learnt ourPublic).1 hpublic with hbefore | htold
    · obtain ⟨hdirectory, hcandidates⟩ := h.knows ourPublic hbefore
      refine ⟨?_, ?_⟩
      · rw [hlocal, ← hdirectory]
        exact hsame.directory
      · rw [show (d.record change).session.directory = _ from hsame.directory, ← hcandidates]
        exact hsame.candidates
    · have hbefore : d.session.publicAddr = none := by
        simpa [htold.1, Phase.listens] using hs.publicAddr
      obtain ⟨hlist, hdirectory, hcandidates⟩ := h.unknown hbefore
      have hempty : (d.record change).session.directory = [] := hsame.directory.trans hdirectory
      refine ⟨?_, ?_⟩
      · rw [hempty, hlist]
        rfl
      · rw [hempty]
        exact hsame.candidates.trans hcandidates
  · exact hsame.connected.trans (h.connected.trans (by rw [← hsame.directory]; rfl))
  · rw [hlists]
    exact hsame.hasPeerList.trans (h.hasPeerList.trans (by rw [← hsame.directory]; rfl))

theorem Indexed.record {d : Diary} (h : Indexed d) (hs : d.session.Settled) (change : Change) :
    Indexed (d.record change) := by
  rcases d.session.heard_cases change with hheard | ⟨peers, rfl, hlistens, hheard⟩
  · exact h.record_quiet hs hheard
  · exact h.record_list hs hlistens hheard

theorem indexed_after (coordinator : SocketAddr) (localAddr : SocketV4) (pace : Pace)
    (now : Instant) (changes : List Change) :
    Indexed (after (.start coordinator localAddr pace now) changes) := by
  induction changes using List.reverseRecOn with
  | nil => exact indexed_first coordinator localAddr pace now
  | append_singleton changes change ih =>
      rw [after_concat]
      exact ih.record (sound_after (sound_first ..) changes).settled change

/-- Once a session knows its address, its phase tells what it has made of the lists. -/
theorem Indexed.phase_eq {d : Diary} (h : Indexed d) (hs : d.session.Settled)
    (hknown : d.session.publicAddr.isSome = true) :
    d.session.phase =
      if d.session.directory ≠ [] then .connected
      else if d.lists ≠ [] then .hasPeerList
      else .awaitingPeerList := by
  have hlistens : d.session.phase.listens = true := hs.publicAddr ▸ hknown
  split
  next hsome => exact h.connected.2 hsome
  next hnone =>
    rw [ne_eq, not_not] at hnone
    split
    next hheard => exact h.hasPeerList.2 ⟨hheard, hnone⟩
    next hdeaf =>
      have hnot : d.session.phase ≠ .connected := fun hphase => h.connected.1 hphase hnone
      have hnot' : d.session.phase ≠ .hasPeerList := fun hphase =>
        hdeaf (h.hasPeerList.1 hphase).1
      cases hphase : d.session.phase <;> simp_all [Phase.listens]

/-- What a session that was started with a local address has made of the peer lists that it
listened to, and how that compares with any other session with the same address pair. -/
structure Catalogued (localAddr : SocketV4) (d : Diary) : Prop where
  /-- A session that does not know its address has listened to nothing. -/
  unknown : d.session.publicAddr = none → d.lists = [] ∧ d.session.directory = [] ∧
    d.session.candidates = []
  /-- The directory is all entries heard without our own, first occurrences only. -/
  directory : ∀ ourPublic, d.session.publicAddr = some ourPublic →
    d.session.directory = others ⟨ourPublic, localAddr⟩ d.lists.flatten
  /-- The candidates are those of the directory, the first for each target only. -/
  candidates : ∀ ourPublic, d.session.publicAddr = some ourPublic →
    d.session.candidates = firstByTarget (d.session.directory.map (candidateFor ourPublic))
  /-- No two candidates have the same target. -/
  targets : (d.session.candidates.map Candidate.target).Nodup
  /-- Every entry of the directory leads to a candidate. -/
  covered : ∀ ourPublic, d.session.publicAddr = some ourPublic → ∀ entry ∈ d.session.directory,
    (candidateFor ourPublic entry).target ∈ d.session.candidates.map Candidate.target
  connected : d.session.phase = .connected ↔ d.session.directory ≠ []
  hasPeerList : d.session.phase = .hasPeerList ↔ d.lists ≠ [] ∧ d.session.directory = []
  /-- It makes no difference how the entries are cut into lists, or how often one comes
  again: only the order of first occurrences matters. -/
  recut : ∀ coordinator pace now changes,
    let d' := after (.start coordinator localAddr pace now) changes
    d'.session.publicAddr = d.session.publicAddr →
    d'.lists.flatten.eraseDups = d.lists.flatten.eraseDups →
    d'.session.directory = d.session.directory ∧ d'.session.candidates = d.session.candidates
  /-- In another order the entries make the same directory and lead to the same targets, as
  sets, and to the same phase; for that it matters if any list came at all. -/
  reordered : ∀ coordinator pace now changes,
    let d' := after (.start coordinator localAddr pace now) changes
    d'.session.publicAddr = d.session.publicAddr →
    (∀ entry, entry ∈ d'.lists.flatten ↔ entry ∈ d.lists.flatten) →
    (∀ entry, entry ∈ d'.session.directory ↔ entry ∈ d.session.directory) ∧
      (∀ target, target ∈ d'.session.candidates.map Candidate.target ↔
        target ∈ d.session.candidates.map Candidate.target) ∧
      (d.session.publicAddr.isSome = true → (d'.lists = [] ↔ d.lists = []) →
        d'.session.phase = d.session.phase)

variable {d d' : Diary}

/-- Two sessions with the same address pair make the same of the same first occurrences. -/
theorem Indexed.recut (h : Indexed d) (h' : Indexed d')
    (hlocal : d'.session.localAddr = d.session.localAddr)
    (hpublic : d'.session.publicAddr = d.session.publicAddr)
    (hlists : d'.lists.flatten.eraseDups = d.lists.flatten.eraseDups) :
    d'.session.directory = d.session.directory ∧
      d'.session.candidates = d.session.candidates := by
  cases hknown : d.session.publicAddr with
  | none =>
      obtain ⟨-, hdirectory, hcandidates⟩ := h.unknown hknown
      obtain ⟨-, hdirectory', hcandidates'⟩ := h'.unknown (hpublic.trans hknown)
      exact ⟨hdirectory'.trans hdirectory.symm, hcandidates'.trans hcandidates.symm⟩
  | some ourPublic =>
      have hk := h.knows ourPublic hknown
      have hk' := h'.knows ourPublic (hpublic.trans hknown)
      have hdirectory : d'.session.directory = d.session.directory := by
        rw [hk.directory, hk'.directory, hlocal]
        exact others_eraseDups _ hlists
      exact ⟨hdirectory, by rw [hk.candidates, hk'.candidates, hdirectory]⟩

theorem Indexed.mem_directory (h : Indexed d) {ourPublic : SocketV4}
    (hknown : d.session.publicAddr = some ourPublic) {entry : PeerEntry} :
    entry ∈ d.session.directory ↔
      entry ∈ d.lists.flatten ∧ entry ≠ ⟨ourPublic, d.session.localAddr⟩ := by
  rw [(h.knows ourPublic hknown).directory, mem_others]

theorem Indexed.mem_targets (h : Indexed d) {ourPublic : SocketV4}
    (hknown : d.session.publicAddr = some ourPublic) {target : SocketV4} :
    target ∈ d.session.candidates.map Candidate.target ↔
      ∃ entry ∈ d.session.directory, (candidateFor ourPublic entry).target = target := by
  rw [(h.knows ourPublic hknown).candidates, Rendezvous.mem_targets, List.map_map, List.mem_map]
  rfl

/-- Two sessions with the same address pair know the same of the same entries. -/
theorem Indexed.reordered (h : Indexed d) (h' : Indexed d')
    (hlocal : d'.session.localAddr = d.session.localAddr)
    (hpublic : d'.session.publicAddr = d.session.publicAddr)
    (hlists : ∀ entry, entry ∈ d'.lists.flatten ↔ entry ∈ d.lists.flatten) :
    (∀ entry, entry ∈ d'.session.directory ↔ entry ∈ d.session.directory) ∧
      ∀ target, target ∈ d'.session.candidates.map Candidate.target ↔
        target ∈ d.session.candidates.map Candidate.target := by
  cases hknown : d.session.publicAddr with
  | none =>
      obtain ⟨-, hdirectory, hcandidates⟩ := h.unknown hknown
      obtain ⟨-, hdirectory', hcandidates'⟩ := h'.unknown (hpublic.trans hknown)
      rw [hdirectory, hdirectory', hcandidates, hcandidates']
      exact ⟨fun _ => .rfl, fun _ => .rfl⟩
  | some ourPublic =>
      have hmem (entry : PeerEntry) :
          entry ∈ d'.session.directory ↔ entry ∈ d.session.directory := by
        rw [h.mem_directory hknown, h'.mem_directory (hpublic.trans hknown), hlocal, hlists]
      refine ⟨hmem, fun target => ?_⟩
      rw [h.mem_targets hknown, h'.mem_targets (hpublic.trans hknown)]
      exact exists_congr fun entry => and_congr_left fun _ => hmem entry

theorem Indexed.phase_congr (h : Indexed d) (h' : Indexed d') (hs : d.session.Settled)
    (hs' : d'.session.Settled) (hknown : d.session.publicAddr.isSome = true)
    (hpublic : d'.session.publicAddr = d.session.publicAddr)
    (hheard : d'.lists = [] ↔ d.lists = [])
    (hdirectory : ∀ entry, entry ∈ d'.session.directory ↔ entry ∈ d.session.directory) :
    d'.session.phase = d.session.phase := by
  have hnobody : d'.session.directory = [] ↔ d.session.directory = [] := by
    simp only [List.eq_nil_iff_forall_not_mem, hdirectory]
  rw [h.phase_eq hs hknown, h'.phase_eq hs' (hpublic ▸ hknown)]
  simp only [ne_eq, hnobody, hheard]

theorem catalogued (coordinator : SocketAddr) (localAddr : SocketV4) (pace : Pace)
    (now : Instant) (changes : List Change) :
    Catalogued localAddr (after (.start coordinator localAddr pace now) changes) := by
  have hsound := sound_after (sound_first coordinator localAddr pace now) changes
  have hlocal := hsound.follows.localAddr
  have h := indexed_after coordinator localAddr pace now changes
  refine ⟨h.unknown, ?_, fun ourPublic hknown => (h.knows ourPublic hknown).candidates, ?_, ?_,
    h.connected, h.hasPeerList, ?_, ?_⟩
  · intro ourPublic hknown
    rw [(h.knows ourPublic hknown).directory, hlocal]
    rfl
  · cases hknown : (after (.start coordinator localAddr pace now) changes).session.publicAddr with
    | none => simp [h.unknown hknown]
    | some ourPublic =>
        rw [(h.knows ourPublic hknown).candidates]
        exact nodup_targets _
  · intro ourPublic hknown entry hentry
    exact (h.mem_targets hknown).2 ⟨entry, hentry, rfl⟩
  · intro coordinator' pace' now' changes' d' hpublic hlists
    have hlocal' : d'.session.localAddr = _ :=
      (sound_after (sound_first coordinator' localAddr pace' now') changes').follows.localAddr
    exact h.recut (indexed_after ..) (hlocal'.trans hlocal.symm) hpublic hlists
  · intro coordinator' pace' now' changes' d' hpublic hlists
    have hsound' := sound_after (sound_first coordinator' localAddr pace' now') changes'
    have h' := indexed_after coordinator' localAddr pace' now' changes'
    obtain ⟨hdirectory, htargets⟩ := h.reordered h'
      (hsound'.follows.localAddr.trans hlocal.symm) hpublic hlists
    exact ⟨hdirectory, htargets, fun hknown hheard =>
      h.phase_congr h' hsound.settled hsound'.settled hknown hpublic hheard hdirectory⟩

end Diary
end Rendezvous
