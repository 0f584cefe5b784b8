import Rendezvous.Coordinator.Observation
import Rendezvous.Proofs.Channel.Receivable
import Rendezvous.Proofs.Coordinator.Visibility
import Rendezvous.Proofs.Peer.Directory

/-!
# Rendezvous.Proofs.Network.Fidelity

**Peers are tried at the address at which they were seen.** The address from which a question
came is put into an answer, read by the session that asked, put into its announcement, read by
the roster, put into lists, and read by other sessions, which choose between it and the local
address that came with it. Each time it is written into a frame and read back.

* `Message.Crosses` is one such crossing; no message comes out of it as another one.
* `Chronicle.PassesOn` says to whom a roster passes on what a member has announced, and
  `Diary.Tries` what a session makes of an entry that it is told of.
* `observed_address_passed_on` goes all the way. Without an IPv4 view there is no answer, and
  a session that hears nothing else from its coordinator never learns an address.
-/

namespace Rendezvous

/-! ### Crossing the wire -/

/-- A message has a frame, which is read as some message. -/
def Message.Crosses (msg heard : Message) : Prop :=
  ∃ frame, msg.encode = .ok frame ∧ Message.decode frame = .ok heard

/-- What is read is what was written. -/
theorem Message.Crosses.eq {msg heard : Message} (h : msg.Crosses heard) : heard = msg := by
  obtain ⟨frame, hframe, hheard⟩ := h
  rw [Message.decode_encode hframe] at hheard
  exact (Except.ok.inj hheard).symm

theorem Message.crosses_of_encode {msg : Message} {frame : Bytes} (h : msg.encode = .ok frame) :
    msg.Crosses msg :=
  ⟨frame, h, Message.decode_encode h⟩

theorem Message.crosses_of_short {msg : Message} (h : msg.frameLength ≤ longestDatagram) :
    msg.Crosses msg := by
  obtain ⟨frame, hframe, -⟩ := exists_encode_of_short h
  exact Message.crosses_of_encode hframe

/-- Neither an answer nor an announcement is too long for a datagram. -/
theorem Message.stunResponse_crosses (observed : SocketV4) :
    (stunResponse observed).Crosses (stunResponse observed) :=
  crosses_of_short (Nat.le_of_ble_eq_true rfl)

theorem Message.connect_crosses (entry : PeerEntry) : (connect entry).Crosses (connect entry) :=
  crosses_of_short (Nat.le_of_ble_eq_true rfl)

theorem Message.crosses_list {entries : List PeerEntry} (h : entries.length ≤ maxListLength) :
    (Message.peersToConnect entries).Crosses (.peersToConnect entries) :=
  Message.crosses_of_encode (listing_of_length h).encodes

/-! ### The answer -/

/-- A question is answered with the IPv4 view of the address from which it came. -/
theorem val_answerPacket_stunRequest (sender : SocketAddr) :
    (answerPacket .stunRequest sender).val =
      match sender.ipv4View with
      | some view => .reply (.stunResponse view) sender
      | none => .ignored := by
  unfold answerPacket observe
  cases sender.ipv4View <;> rfl

/-- An answer of the coordinator tells the view of the one to whom it goes. -/
theorem ipv4View_of_reply {asked : Message} {sender target : SocketAddr} {observed : SocketV4}
    (h : (answerPacket asked sender).val = .reply (.stunResponse observed) target) :
    sender.ipv4View = some observed := by
  cases asked with
  | stunRequest =>
      rw [val_answerPacket_stunRequest] at h
      cases hview : sender.ipv4View with
      | none => simp [hview] at h
      | some view =>
          simp only [hview, PacketAnswer.reply.injEq, Message.stunResponse.injEq] at h
          rw [h.1]
  | _ => simp [answerPacket] at h

/-- A change that brings no packet from the coordinator, or one of its answers to one sender. -/
def Session.Change.AnsweredTo (sender coordinator : SocketAddr) (change : Session.Change) : Prop :=
  ∀ msg now, change = .packet msg coordinator now →
    ∃ asked reply, (answerPacket asked sender).val = .reply reply sender ∧ reply.Crosses msg

/-- A session that hears nothing from its coordinator but answers to one sender learns the view
of that sender, or no address at all. -/
theorem Diary.ipv4View_of_publicAddr {sender coordinator : SocketAddr} {localAddr : SocketV4}
    {pace : Pace} {now : Instant} {changes : List Session.Change}
    (h : ∀ change ∈ changes, change.AnsweredTo sender coordinator) {addr : SocketV4}
    (hknown : (after (.start coordinator localAddr pace now) changes).session.publicAddr =
      some addr) : sender.ipv4View = some addr := by
  induction changes using List.reverseRecOn with
  | nil => cases hknown
  | append_singleton changes change ih =>
      have hsound := sound_after (sound_first coordinator localAddr pace now) changes
      have hcoordinator := hsound.follows.coordinator
      rw [after_concat] at hknown
      rcases ((hsound.settled.stepped change).learnt addr).1 hknown with
        hbefore | ⟨-, time, hpacket⟩
      · exact ih (fun other hother => h other (List.mem_append_left _ hother)) hbefore
      · have hchange : change ∈ changes ++ [change] :=
          List.mem_append_right _ (List.mem_singleton_self _)
        rw [hcoordinator] at hpacket
        obtain ⟨asked, reply, hreply, hcrosses⟩ := h change hchange _ time hpacket
        exact ipv4View_of_reply (hcrosses.eq ▸ hreply)

/-- A session that knows no address has announced nothing, and is at most asking for one. -/
theorem Diary.Sound.asking_of_publicAddr_eq_none {start : Session} {d : Diary}
    (h : Sound start d) (hunknown : d.session.publicAddr = none) :
    d.controlPut = [] ∧
      (d.session.phase = .unknownSelf ∨ d.session.phase = .awaitingStunResponse) := by
  have hput := h.announced
  have hdeaf := h.settled.publicAddr
  rw [Session.ownEntry, hunknown] at hput
  rw [hunknown] at hdeaf
  refine ⟨hput, ?_⟩
  cases hphase : d.session.phase with
  | unknownSelf => exact .inl rfl
  | awaitingStunResponse => exact .inr rfl
  | knownSelf => exact absurd hphase h.settled.phase_ne
  | _ =>
      rw [hphase] at hdeaf
      cases hdeaf

/-! ### The lists -/

namespace Chronicle

variable {c : Chronicle} {maker : Handle} {entry : PeerEntry}

/-- What a roster passes on of an entry that a member announces: at once to all others that are
registered, each of which is sent this one entry, and to whoever announces something while it
is the member's last announcement and the member is registered. -/
structure PassesOn (c : Chronicle) (maker : Handle) (entry : PeerEntry) : Prop where
  told : (c.roster.viewOf maker).isSome = true → ∀ other ∈ c.audience maker,
    (c.roster.introduce maker entry).val.2.pending other =
        c.roster.pending other ++ [.peersToConnect [entry]] ∧
      (Message.peersToConnect [entry]).Crosses (.peersToConnect [entry])
  listed : c.announced maker = some entry → ∀ other own,
    (c.roster.viewOf other).isSome = true → maker ∈ c.audience other →
      ∃ lists : List (List PeerEntry),
        (c.roster.introduce other own).val.2.pending other =
            c.roster.pending other ++ lists.map .peersToConnect ∧
          (∃ list ∈ lists, entry ∈ list) ∧
            ∀ list ∈ lists, (Message.peersToConnect list).Crosses (.peersToConnect list)

theorem ne_of_mem_audience {other : Handle} (hother : other ∈ c.audience maker) :
    other ≠ maker := by
  have htold := (List.mem_filter.1 hother).2
  rw [Bool.and_eq_true, decide_eq_true_eq] at htold
  exact htold.1

/-- Every list that an announcement brings to a member crosses the wire. -/
theorem crosses_of_pending_introduce {roster : Roster} (h : roster.WellFormed) {handle : Handle}
    {lists : List (List PeerEntry)}
    (hlists : (roster.introduce handle entry).val.2.pending handle =
      roster.pending handle ++ lists.map .peersToConnect) :
    ∀ list ∈ lists, (Message.peersToConnect list).Crosses (.peersToConnect list) := by
  intro list hlist
  rw [Roster.pending_introduce h, List.append_cancel_left_eq] at hlists
  have hmsg : Message.peersToConnect list ∈
      ((roster.mail handle entry).filter fun item => item.1 = handle).map Prod.snd :=
    hlists ▸ List.mem_map_of_mem hlist
  obtain ⟨item, hitem, hsnd⟩ := List.mem_map.1 hmsg
  obtain ⟨entries, hentries, hlength⟩ := Roster.mem_mail (List.mem_of_mem_filter hitem)
  obtain rfl : entries = list := Message.peersToConnect.inj (hentries.symm.trans hsnd)
  exact Message.crosses_list hlength

theorem Sound.passesOn (h : Sound c) (maker : Handle) (entry : PeerEntry) :
    c.PassesOn maker entry where
  told := by
    intro hview other hother
    obtain ⟨control, hcontrol⟩ := Option.isSome_iff_exists.1 hview
    obtain ⟨-, lists, hspread⟩ := Roster.spread_introduce h.wellFormed h.held hcontrol entry
    rw [← h.audience_eq] at hspread
    have hshort : [entry].length ≤ maxListLength := Nat.le_of_ble_eq_true rfl
    refine ⟨?_, Message.crosses_list hshort⟩
    rw [hspread.pending, Roster.news, if_neg (ne_of_mem_audience hother), if_pos hother]
  listed := by
    intro hlast other own hview hmaker
    obtain ⟨control, hcontrol⟩ := Option.isSome_iff_exists.1 hview
    obtain ⟨-, lists, hspread⟩ := Roster.spread_introduce h.wellFormed h.held hcontrol own
    rw [← h.audience_eq] at hspread
    have hpending := hspread.pending other
    rw [Roster.news, if_pos rfl] at hpending
    refine ⟨lists, hpending, ?_, crosses_of_pending_introduce h.wellFormed hpending⟩
    -- The lists hold what those who are told have announced, the maker among them.
    have hentry : c.roster.entryOf maker = some entry := (h.announced maker).symm.trans hlast
    have hmem : some entry ∈ lists.flatten.map some := by
      rw [hspread.entries, ← hentry]
      exact List.mem_map_of_mem hmaker
    obtain ⟨told, htold, hsame⟩ := List.mem_map.1 hmem
    obtain rfl : told = entry := Option.some.inj hsame
    exact List.mem_flatten.1 htold

end Chronicle

/-! ### The candidate -/

/-- What a session makes of an entry with this public and this local address: it notes the entry
when it is told of it, unless the entry is its own, and tries the local address if the public
addresses have the same IP, and the public one otherwise. -/
structure Diary.Tries (d : Diary) (entry : PeerEntry) (publicAddr localAddr : SocketV4) :
    Prop where
  noted : ∀ ourPublic, d.session.publicAddr = some ourPublic →
    entry ∈ d.lists.flatten → entry ≠ ⟨ourPublic, d.session.localAddr⟩ →
      entry ∈ d.session.directory
  tried : ∀ ourPublic, d.session.publicAddr = some ourPublic → entry ∈ d.session.directory →
    (if ourPublic.ip = publicAddr.ip then localAddr else publicAddr) ∈
      d.session.candidates.map Candidate.target

theorem target_candidateFor (ourPublic : SocketV4) (entry : PeerEntry) :
    (candidateFor ourPublic entry).target =
      if ourPublic.ip = entry.publicAddr.ip then entry.localAddr else entry.publicAddr := by
  unfold candidateFor
  by_cases hsame : entry.publicAddr.ip = ourPublic.ip
  · rw [if_pos hsame, if_pos hsame.symm]
  · rw [if_neg hsame, if_neg (Ne.symm hsame)]

theorem Diary.Indexed.tries {d : Diary} (h : d.Indexed) (entry : PeerEntry) :
    d.Tries entry entry.publicAddr entry.localAddr where
  noted := fun _ hknown hheard hother => (h.mem_directory hknown).2 ⟨hheard, hother⟩
  tried := by
    intro ourPublic hknown hnoted
    rw [← target_candidateFor]
    exact (h.mem_targets hknown).2 ⟨entry, hnoted, rfl⟩

/-! ### All the way -/

/-- What becomes of a session that hears an answer of its coordinator with this address while it
awaits one, and of the announcement that it then makes. -/
structure Session.Spreads (s : Session) (now : Instant) (heard : Message) (view : SocketV4)
    (connect : Message) (entry : PeerEntry) : Prop where
  learnt : (s.onPacket heard s.coordinator now).val.publicAddr = some view
  queued : (s.onPacket heard s.coordinator now).val.controlQueue = s.controlQueue ++ [connect]
  crosses : connect.Crosses (.connect entry)
  publicAddr : entry.publicAddr = view
  localAddr : entry.localAddr = s.localAddr
  passed : ∀ changes maker, (Chronicle.after changes).PassesOn maker entry
  tried : ∀ coordinator localAddr pace created changes,
    (Diary.after (.start coordinator localAddr pace created) changes).Tries entry view s.localAddr

theorem Session.spreads {s : Session} (h : s.phase = .awaitingStunResponse) (now : Instant)
    (view : SocketV4) :
    s.Spreads now (.stunResponse view) view (.connect ⟨view, s.localAddr⟩)
      ⟨view, s.localAddr⟩ := by
  have hheard := val_onPacket_stunResponse s view s.coordinator now
  rw [if_pos ⟨rfl, h⟩] at hheard
  refine ⟨?_, ?_, Message.connect_crosses _, rfl, rfl, ?_, ?_⟩
  · rw [hheard]
  · rw [hheard]
  · exact fun changes maker => (Chronicle.sound_after changes).passesOn maker _
  · exact fun coordinator localAddr pace created changes =>
      (Diary.indexed_after coordinator localAddr pace created changes).tries _

/-- **Peers are tried at the address at which they were seen.** If the sender of a question has
an IPv4 view, then the coordinator's answer crosses the wire, and any session that awaits it
learns that view from it and announces it, together with its own local address, in a message
that crosses the wire as well. The roster passes on this very pair, and any other session that
notes it tries the local address if the view has the IP of its own public address, and the view
otherwise. A sender without an IPv4 view gets no answer; and a session that hears from its
coordinator only answers to one sender knows the view of that sender or no address, so without
one it never announces itself. -/
theorem observed_address_passed_on (sender : SocketAddr) :
    (match sender.ipv4View with
      | some view =>
        ∃ reply heard, (answerPacket .stunRequest sender).val = .reply reply sender ∧
          reply.Crosses heard ∧
          ∀ (s : Session) (now : Instant), s.phase = .awaitingStunResponse →
            ∃ connect entry, s.Spreads now heard view connect entry
      | none => (answerPacket .stunRequest sender).val = .ignored) ∧
    ∀ coordinator localAddr pace created changes,
      (∀ change ∈ changes, Session.Change.AnsweredTo sender coordinator change) →
        let d := Diary.after (.start coordinator localAddr pace created) changes
        (∀ addr, d.session.publicAddr = some addr → sender.ipv4View = some addr) ∧
          (sender.ipv4View = none → d.controlPut = [] ∧
            (d.session.phase = .unknownSelf ∨ d.session.phase = .awaitingStunResponse)) := by
  constructor
  · have hanswer := val_answerPacket_stunRequest sender
    cases hview : sender.ipv4View with
    | none => simpa only [hview] using hanswer
    | some view =>
        rw [hview] at hanswer
        refine ⟨_, _, hanswer, Message.stunResponse_crosses view, ?_⟩
        intro s now hphase
        exact ⟨_, _, Session.spreads hphase now view⟩
  · intro coordinator localAddr pace created changes hanswered d
    have hseen : ∀ addr, d.session.publicAddr = some addr → sender.ipv4View = some addr :=
      fun addr hknown => Diary.ipv4View_of_publicAddr hanswered hknown
    refine ⟨hseen, fun hnone => ?_⟩
    have hunknown : d.session.publicAddr = none := by
      cases hpublic : d.session.publicAddr with
      | none => rfl
      | some addr =>
          rw [hseen addr hpublic] at hnone
          cases hnone
    exact (Diary.sound_after (Diary.sound_first coordinator localAddr pace created)
      changes).asking_of_publicAddr_eq_none hunknown

/-- A question comes from an IPv4-mapped address: the session that asked it announces the
address that is mapped. One that comes from an IPv6 address only is not answered, and a stranger
who answers it instead is not believed. -/
theorem observed_address_passed_on_mapped :
    let coordinator : SocketAddr := .v4 ⟨⟨0xc0000201⟩, 8081⟩
    let start : Session := .start coordinator ⟨⟨0xc0a80164⟩, 5000⟩ .default ⟨0⟩
    let view : SocketV4 := ⟨⟨0xcb007105⟩, 40000⟩
    let mapped : SocketAddr := .v6 ⟨⟨#v[0, 0, 0, 0, 0, 0xffff, 0xcb00, 0x7105]⟩, 40000, 0⟩
    let native : SocketAddr := .v6 ⟨⟨#v[0xfe80, 0, 0, 0, 0, 0, 0, 1]⟩, 40000, 2⟩
    (∃ reply heard connect entry, (answerPacket .stunRequest mapped).val = .reply reply mapped ∧
      reply.Crosses heard ∧ (start.tick ⟨7⟩).val.Spreads ⟨9⟩ heard view connect entry) ∧
    (answerPacket .stunRequest native).val = .ignored ∧
      (Diary.after start [.tick ⟨7⟩, .packet (.stunResponse view) native ⟨8⟩]).controlPut = [] := by
  intro coordinator start view mapped native
  refine ⟨?_, (observed_address_passed_on native).1, ?_⟩
  · obtain ⟨reply, heard, hreply, hcrosses, hspreads⟩ := (observed_address_passed_on mapped).1
    obtain ⟨connect, entry, hentry⟩ := hspreads (start.tick ⟨7⟩).val ⟨9⟩ rfl
    exact ⟨reply, heard, connect, entry, hreply, hcrosses, hentry⟩
  · have hunanswered : ∀ change ∈ [Session.Change.tick ⟨7⟩,
        .packet (.stunResponse view) native ⟨8⟩],
        Session.Change.AnsweredTo native coordinator change := by
      intro change hchange msg now hpacket
      subst hpacket
      simp [coordinator, native] at hchange
    exact ((observed_address_passed_on native).2 coordinator ⟨⟨0xc0a80164⟩, 5000⟩ .default ⟨0⟩ _
      hunanswered).2 rfl |>.1

end Rendezvous
