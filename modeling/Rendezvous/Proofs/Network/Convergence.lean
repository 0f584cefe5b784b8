import Rendezvous.Proofs.Channel.Output
import Rendezvous.Proofs.Coordinator.Announcements
import Rendezvous.Proofs.Peer.Session

/-!
# Rendezvous.Proofs.Network.Convergence

**In the end everybody knows everybody.** A `Network` is a roster, a session for each
attached member, and between the two a link in each direction that carries frames in
order. Its `Action`s may come in any order: a peer attaches, a timer fires, a packet
arrives at a session, and a message goes into a link or comes out of one.

* `Node.sent` and `Node.coming` are the messages under way to and from the roster,
  queued or in a link. Sending changes neither, and receiving takes the first one.
* `Node.Good` is the invariant of one peer: nothing has been announced, or the
  announcement is under way, or it has been handled, and then what the session knows and
  what is coming to it are the entries of all others.
* `Network.converges` is what follows for the whole network.
-/

namespace Rendezvous

/-! ### Links -/

/-- What comes out of a link: a frame that fits the receive buffer is decoded. -/
def received (frame : Bytes) : Option Message :=
  if frame.length ≤ streamCapacity then (Message.decode frame).toOption else none

/-- The entries that a message lists. -/
def Message.listed : Message → List PeerEntry
  | peersToConnect entries => entries
  | _ => []

/-- A peer at the far end of its link. -/
structure Node where
  session : Session
  /-- Frames on their way to the roster. -/
  up : List Bytes
  /-- Frames on their way to the session. -/
  down : List Bytes

namespace Node

/-- The messages under way to the roster, the first one first. -/
def sent (node : Node) : List Message :=
  node.up.filterMap received ++ node.session.controlQueue

/-- The messages under way to the session, given those that are queued in the roster. -/
def coming (node : Node) (pending : List Message) : List Message :=
  node.down.filterMap received ++ pending

end Node

/-! ### The network -/

/-- A roster and its peers. -/
structure Network where
  roster : Roster
  nodes : Handle → Option Node
  /-- The announcements that the roster has handled, in order. -/
  handled : List (Handle × PeerEntry)

/-- Something that a peer, or the link to it, does. -/
inductive Move where
  /-- The session looks at its timer. -/
  | tick (now : Instant)
  /-- A packet arrives at the session. -/
  | packet (msg : Message) (sender : SocketAddr) (now : Instant)
  /-- A message of the session goes into the link. -/
  | sendUp
  /-- The roster takes a message out of the link. -/
  | receiveUp
  /-- A message of the roster goes into the link. -/
  | sendDown
  /-- The session takes a message out of the link. -/
  | receiveDown

/-- Something that happens in a network. -/
inductive Action where
  /-- A connection is attached, with a new session at its far end. -/
  | attach (stream : FramedStream) (addr : SocketAddr) (timer : Timer) (coordinator : SocketAddr)
    (localAddr : SocketV4) (pace : Pace) (now : Instant)
  | move (handle : Handle) (move : Move)

namespace Network

/-- Nobody is attached. -/
def empty : Network := ⟨.empty, fun _ => none, []⟩

/-- Replaces a peer. -/
def setNode (net : Network) (handle : Handle) (node : Node) : Network :=
  { net with nodes := fun other => if other = handle then some node else net.nodes other }

/-- May a peer connect from an address? Peers have different IPv4 views. -/
def admits (net : Network) (addr : SocketAddr) : Bool :=
  addr.ipv4View.isSome &&
    net.roster.members.toList.all fun entry => entry.2.addr.ipv4View ≠ addr.ipv4View

/-- Puts the frame of a message into a link. A message without a frame is lost. -/
def put (link : List Bytes) (msg : Message) : List Bytes :=
  match msg.encode with
  | .ok frame => link ++ [frame]
  | .error _ => link

/-- Hands a message over to the roster, which takes announcements only. -/
def deliver (net : Network) (handle : Handle) (msg : Message) : Network :=
  match msg with
  | .connect entry =>
    { net with
      roster := (net.roster.introduce handle entry).val.2
      handled := net.handled ++ [(handle, entry)] }
  | _ => net

/-- What a move does, given the peer. -/
def perform (net : Network) (handle : Handle) (node : Node) : Move → Network
  | .tick now => net.setNode handle { node with session := (node.session.tick now).val }
  | .packet msg sender now =>
    net.setNode handle { node with session := (node.session.onPacket msg sender now).val }
  | .sendUp =>
    match node.session.takeControl with
    | (some msg, session) =>
      net.setNode handle { node with session := session, up := put node.up msg }
    | (none, _) => net
  | .receiveUp =>
    match node.up with
    | [] => net
    | frame :: rest =>
      let net := net.setNode handle { node with up := rest }
      match received frame with
      | some msg => net.deliver handle msg
      | none => net
  | .sendDown =>
    match net.roster.takeNext handle with
    | (some msg, roster) =>
      { net with roster := roster }.setNode handle { node with down := put node.down msg }
    | (none, _) => net
  | .receiveDown =>
    match node.down with
    | [] => net
    | frame :: rest =>
      match received frame with
      | some msg =>
        net.setNode handle
          { node with session := (node.session.onControl msg).val, down := rest }
      | none => net.setNode handle { node with down := rest }

/-- One step. Moves of nobody do nothing. -/
def step (net : Network) : Action → Network
  | .attach stream addr timer coordinator localAddr pace now =>
    if net.admits addr then
      let (handle, roster) := (net.roster.enroll stream addr timer).val
      let session := Session.start coordinator localAddr pace now
      { net with roster := roster }.setNode handle ⟨session, [], []⟩
    else net
  | .move handle move =>
    match net.nodes handle with
    | some node => net.perform handle node move
    | none => net

/-- A network after some actions. -/
def run (net : Network) (actions : List Action) : Network := actions.foldl step net

/-- The messages under way to a peer. -/
def coming (net : Network) (handle : Handle) (node : Node) : List Message :=
  node.coming (net.roster.pending handle)

/-- Nothing is queued and nothing is in a link. -/
def Quiescent (net : Network) : Prop :=
  ∀ handle node, net.nodes handle = some node →
    node.session.controlQueue = [] ∧ node.up = [] ∧ node.down = [] ∧
      net.roster.pending handle = []

end Network

/-! ### What passes a link -/

/-- A message that passes a link unharmed. -/
def Message.Passes (msg : Message) : Prop :=
  ∀ link, (Network.put link msg).filterMap received = link.filterMap received ++ [msg]

theorem Message.passes_of_fits {msg : Message} (hcountable : msg.countable = true)
    (hfits : Put.total (msg.puts 0) ≤ streamCapacity) : msg.Passes := by
  intro link
  obtain ⟨frame, hencode, hlength⟩ := encode_of_fits_capacity hcountable hfits
  have hreceived : received frame = some msg := by
    simp [received, hlength, hfits, decode_encode hencode, Except.toOption]
  simp [Network.put, hencode, hreceived]

theorem Message.passes_connect (entry : PeerEntry) : (Message.connect entry).Passes :=
  passes_of_fits rfl (Nat.le_of_ble_eq_true rfl)

/-- A list that is not too long passes, so its frame fits the receive buffer. -/
theorem Message.passes_peersToConnect {entries : List PeerEntry}
    (h : entries.length ≤ maxListLength) : (Message.peersToConnect entries).Passes :=
  passes_of_fits (peersToConnect_fits h).1 (peersToConnect_fits h).2

/-! ### The invariant of a peer -/

namespace Node

variable {node : Node} {pending : List Message}

/-- Nothing has been announced. -/
structure Silent (node : Node) (pending : List Message) : Prop where
  session : node.session.Unannounced
  sent : node.sent = []
  coming : node.coming pending = []

/-- The announcement is under way. -/
structure Announcing (node : Node) (pending : List Message) (own : PeerEntry) : Prop where
  session : node.session.Announced own
  sent : node.sent = [.connect own]
  coming : node.coming pending = []
  directory : node.session.directory = []

/-- The announcement has arrived. Only peer lists are coming, and what they list and the
session knows are the entries of others. -/
structure Informed (node : Node) (pending : List Message) (own : PeerEntry)
    (others : PeerEntry → Prop) : Prop where
  session : node.session.Announced own
  sent : node.sent = []
  lists : ∀ msg ∈ node.coming pending,
    ∃ entries, msg = .peersToConnect entries ∧ entries.length ≤ maxListLength
  notOwn : own ∉ node.session.directory
  complete : ∀ entry, entry ≠ own →
    ((entry ∈ node.session.directory ∨ ∃ msg ∈ node.coming pending, entry ∈ msg.listed) ↔
      others entry)

/-- What holds of a peer, given the announcements that the roster has handled. -/
inductive Good (handled : List (Handle × PeerEntry)) (handle : Handle) (node : Node)
    (pending : List Message) : Prop where
  | silent (state : node.Silent pending) (unheard : ∀ entry, (handle, entry) ∉ handled)
  | announcing (own : PeerEntry) (state : node.Announcing pending own)
    (unheard : ∀ entry, (handle, entry) ∉ handled)
  | informed (own : PeerEntry)
    (state : node.Informed pending own fun entry =>
      ∃ other, other ≠ handle ∧ (other, entry) ∈ handled)
    (heard : (handle, own) ∈ handled)

variable {handled : List (Handle × PeerEntry)} {handle : Handle}

/-- A peer stays good as long as its session does and the same is under way. -/
theorem Good.congr (h : Good handled handle node pending) {node' : Node} {pending' : List Message}
    (hsilent : node.session.Unannounced → node'.session.Unannounced)
    (hannounced : ∀ own, node.session.Announced own → node'.session.Announced own)
    (hdirectory : node'.session.directory = node.session.directory)
    (hsent : node'.sent = node.sent) (hcoming : node'.coming pending' = node.coming pending) :
    Good handled handle node' pending' := by
  cases h with
  | silent state unheard =>
      exact .silent ⟨hsilent state.session, hsent.trans state.sent, hcoming.trans state.coming⟩
        unheard
  | announcing own state unheard =>
      exact .announcing own ⟨hannounced own state.session, hsent.trans state.sent,
        hcoming.trans state.coming, hdirectory.trans state.directory⟩ unheard
  | informed own state heard =>
      refine .informed own ⟨hannounced own state.session, hsent.trans state.sent, ?_, ?_, ?_⟩ heard
      · rw [hcoming]
        exact state.lists
      · rw [hdirectory]
        exact state.notOwn
      · rw [hcoming, hdirectory]
        exact state.complete

/-- Whatever is under way passes a link. -/
theorem Good.passes_sent (h : Good handled handle node pending) :
    ∀ msg ∈ node.sent, msg.Passes := by
  cases h with
  | silent state _ => simp [state.sent]
  | announcing own state _ =>
      rw [state.sent]
      simpa using Message.passes_connect own
  | informed own state _ => simp [state.sent]

theorem Good.passes_coming (h : Good handled handle node pending) :
    ∀ msg ∈ node.coming pending, msg.Passes := by
  cases h with
  | silent state _ => simp [state.coming]
  | announcing own state _ => simp [state.coming]
  | informed own state _ =>
      intro msg hmsg
      obtain ⟨entries, rfl, hlength⟩ := state.lists msg hmsg
      exact Message.passes_peersToConnect hlength

/-! ### What a peer does -/

theorem Good.tick (h : Good handled handle node pending) (now : Instant) :
    Good handled handle { node with session := (node.session.tick now).val } pending := by
  have hkeep : (node.session.tick now).val.controlQueue = node.session.controlQueue ∧
      (node.session.tick now).val.directory = node.session.directory := by
    cases h with
    | silent state _ =>
        have hsession := state.session.tick now
        exact ⟨hsession.control.trans state.session.control.symm,
          hsession.directory.trans state.session.directory.symm⟩
    | announcing own state _ => exact (state.session.tick now).2
    | informed own state _ => exact (state.session.tick now).2
  refine h.congr (fun hsession => hsession.tick now) (fun own hsession => (hsession.tick now).1)
    hkeep.2 ?_ rfl
  simp [sent, hkeep.1]

/-- A packet may make a silent peer announce itself, and does nothing to others. -/
theorem Good.packet (h : Good handled handle node pending) (msg : Message) (sender : SocketAddr)
    (now : Instant) :
    Good handled handle
      { node with session := (node.session.onPacket msg sender now).val } pending := by
  cases h with
  | silent state unheard =>
      have hup : node.up.filterMap received = [] := (List.append_eq_nil_iff.1 state.sent).1
      rcases state.session.onPacket msg sender now with
        hsession | ⟨own, hsession, hqueue, hdirectory⟩
      · refine .silent ⟨hsession, ?_, state.coming⟩ unheard
        simp [sent, hup, hsession.control]
      · refine .announcing own ⟨hsession, ?_, state.coming, hdirectory⟩ unheard
        simp [sent, hup, hqueue]
  | announcing own state unheard =>
      rw [state.session.onPacket]
      exact .announcing own state unheard
  | informed own state heard =>
      rw [state.session.onPacket]
      exact .informed own state heard

theorem Good.sendUp (h : Good handled handle node pending) {msg : Message} {rest : List Message}
    (hqueue : node.session.controlQueue = msg :: rest) :
    Good handled handle
      { node with
        session := { node.session with controlQueue := rest }
        up := Network.put node.up msg } pending := by
  have hpasses : msg.Passes := h.passes_sent msg (by simp [sent, hqueue])
  refine h.congr (fun hsession => ?_) (fun own hsession => ⟨hsession.listens, hsession.own⟩) rfl ?_
    rfl
  · have hcontrol := hsession.control
    simp [hqueue] at hcontrol
  · simp [sent, hpasses node.up, hqueue]

theorem Good.dropUp (h : Good handled handle node pending) {frame : Bytes} {rest : List Bytes}
    (hup : node.up = frame :: rest) (hlost : received frame = none) :
    Good handled handle { node with up := rest } pending := by
  refine h.congr id (fun _ => id) rfl ?_ rfl
  simp [sent, hup, hlost]

/-- All that comes out of the link to the roster is the announcement. -/
theorem Good.receiveUp (h : Good handled handle node pending) {frame : Bytes} {rest : List Bytes}
    (hup : node.up = frame :: rest) {msg : Message} (hreceived : received frame = some msg) :
    ∃ own, msg = .connect own ∧ node.session.Announced own ∧
      ({ node with up := rest } : Node).sent = [] ∧ node.coming pending = [] ∧
        node.session.directory = [] ∧ ∀ entry, (handle, entry) ∉ handled := by
  have hsent : node.sent = msg :: ({ node with up := rest } : Node).sent := by
    simp [sent, hup, hreceived]
  cases h with
  | silent state _ =>
      rw [state.sent] at hsent
      cases hsent
  | announcing own state unheard =>
      rw [state.sent, List.cons.injEq] at hsent
      exact ⟨own, hsent.1.symm, state.session, hsent.2.symm, state.coming, state.directory, unheard⟩
  | informed own state _ =>
      rw [state.sent] at hsent
      cases hsent

theorem Good.sendDown {msg : Message} {rest : List Message}
    (h : Good handled handle node (msg :: rest)) :
    Good handled handle { node with down := Network.put node.down msg } rest := by
  have hpasses : msg.Passes := h.passes_coming msg (by simp [coming])
  refine h.congr id (fun _ => id) rfl rfl ?_
  simp [coming, hpasses node.down]

theorem Good.dropDown (h : Good handled handle node pending) {frame : Bytes} {rest : List Bytes}
    (hdown : node.down = frame :: rest) (hlost : received frame = none) :
    Good handled handle { node with down := rest } pending := by
  refine h.congr id (fun _ => id) rfl rfl ?_
  simp [coming, hdown, hlost]

/-- A peer list that comes out of the link is taken in: what it lists is known then, and
all else is as before. -/
theorem Informed.receiveDown {own : PeerEntry} {others : PeerEntry → Prop}
    (h : Informed node pending own others) {rest : List Bytes} {entries : List PeerEntry}
    (hcoming : node.coming pending =
      .peersToConnect entries :: ({ node with down := rest } : Node).coming pending) :
    Informed { node with
      session := (node.session.onControl (.peersToConnect entries)).val, down := rest }
      pending own others := by
  have hlists := h.lists
  have hcomplete := h.complete
  rw [hcoming] at hlists hcomplete
  obtain ⟨hsession, hdirectory⟩ := h.session.onControl entries
  refine ⟨hsession, ?_, ?_, ?_, ?_⟩
  · have hqueue := congrArg Session.controlQueue
      (node.session.onControl_frame (.peersToConnect entries))
    simp only [Node.sent, hqueue]
    exact h.sent
  · exact fun other hother => hlists other (List.mem_cons_of_mem _ hother)
  · intro hmem
    rcases (hdirectory own).1 hmem with hmem | ⟨-, hne⟩
    · exact h.notOwn hmem
    · exact hne rfl
  · intro entry hne
    rw [← hcomplete entry hne, hdirectory]
    simp only [List.mem_cons, exists_eq_or_imp, Message.listed, hne, ne_eq, not_false_eq_true,
      and_true, or_assoc]
    rfl

/-- What comes out of the link to a session is a peer list, which the session takes in. -/
theorem Good.receiveDown (h : Good handled handle node pending) {frame : Bytes}
    {rest : List Bytes} (hdown : node.down = frame :: rest) {msg : Message}
    (hreceived : received frame = some msg) :
    Good handled handle
      { node with session := (node.session.onControl msg).val, down := rest } pending := by
  have hcoming : node.coming pending =
      msg :: ({ node with down := rest } : Node).coming pending := by
    simp [coming, hdown, hreceived]
  cases h with
  | silent state _ =>
      rw [state.coming] at hcoming
      cases hcoming
  | announcing own state _ =>
      rw [state.coming] at hcoming
      cases hcoming
  | informed own state heard =>
      obtain ⟨entries, rfl, -⟩ := state.lists msg (by simp [hcoming])
      exact .informed own (state.receiveDown hcoming) heard

/-- The entries of all others, when one more of them has announced itself. -/
theorem exists_other_hear {maker : Handle} (hne : handle ≠ maker) (entry told : PeerEntry) :
    (∃ other, other ≠ handle ∧ (other, told) ∈ handled ++ [(maker, entry)]) ↔
      (∃ other, other ≠ handle ∧ (other, told) ∈ handled) ∨ told = entry := by
  simp only [List.mem_append, List.mem_singleton, Prod.mk.injEq]
  constructor
  · rintro ⟨other, hother, hmade | ⟨rfl, rfl⟩⟩
    · exact .inl ⟨other, hother, hmade⟩
    · exact .inr rfl
  · rintro (⟨other, hother, hmade⟩ | rfl)
    · exact ⟨other, hother, .inl hmade⟩
    · exact ⟨maker, hne.symm, .inr ⟨rfl, rfl⟩⟩

/-- Whoever has been heard stays informed when it is told of a new entry. -/
theorem Informed.hear {own : PeerEntry} {others others' : PeerEntry → Prop}
    (h : Informed node pending own others) {entry : PeerEntry} {lists : List (List PeerEntry)}
    (heach : ∀ list ∈ lists, list = [entry])
    (htold : ∀ told, (∃ list ∈ lists, told ∈ list) ↔ told = entry)
    (hothers : ∀ told, others' told ↔ others told ∨ told = entry) :
    Informed node (pending ++ lists.map Message.peersToConnect) own others' := by
  have hcoming : node.coming (pending ++ lists.map Message.peersToConnect) =
      node.coming pending ++ lists.map Message.peersToConnect := by
    simp [coming]
  refine ⟨h.session, h.sent, ?_, h.notOwn, ?_⟩
  · rw [hcoming]
    intro msg hmsg
    rcases List.mem_append.1 hmsg with hmsg | hmsg
    · exact h.lists msg hmsg
    · obtain ⟨list, hlist, rfl⟩ := List.mem_map.1 hmsg
      exact ⟨list, rfl, by simp [heach list hlist, maxListLength_eq]⟩
  · intro told hne
    have hnew : (∃ msg ∈ lists.map Message.peersToConnect, told ∈ msg.listed) ↔ told = entry := by
      simp only [List.mem_map, exists_exists_and_eq_and, Message.listed, htold]
    rw [hcoming, hothers, ← h.complete told hne]
    simp only [List.mem_append, or_and_right, exists_or, ← or_assoc, hnew]

/-- Somebody else has announced itself: whoever has been heard before is told. -/
theorem Good.hear (h : Good handled handle node pending) {maker : Handle} (hne : handle ≠ maker)
    {entry : PeerEntry} {lists : List (List PeerEntry)}
    (heach : ∀ list ∈ lists, list = [entry])
    (htold : ∀ told, (∃ list ∈ lists, told ∈ list) ↔
      told = entry ∧ ∃ own, (handle, own) ∈ handled) :
    Good (handled ++ [(maker, entry)]) handle node
      (pending ++ lists.map Message.peersToConnect) := by
  have hunheard : (∀ own, (handle, own) ∉ handled) → lists = [] ∧
      ∀ own, (handle, own) ∉ handled ++ [(maker, entry)] := by
    intro hunheard
    refine ⟨List.eq_nil_iff_forall_not_mem.2 ?_, ?_⟩
    · intro list hlist
      obtain ⟨-, own, hown⟩ := (htold entry).1 ⟨list, hlist, by simp [heach list hlist]⟩
      exact hunheard own hown
    · intro own hown
      rcases List.mem_append.1 hown with hown | hown
      · exact hunheard own hown
      · exact hne (congrArg Prod.fst (List.mem_singleton.1 hown))
  cases h with
  | silent state unheard =>
      obtain ⟨hlists, hunheard'⟩ := hunheard unheard
      exact .silent ⟨state.session, state.sent, by simp [hlists, state.coming]⟩ hunheard'
  | announcing own state unheard =>
      obtain ⟨hlists, hunheard'⟩ := hunheard unheard
      exact .announcing own ⟨state.session, state.sent, by simp [hlists, state.coming],
        state.directory⟩ hunheard'
  | informed own state heard =>
      have htold' : ∀ told, (∃ list ∈ lists, told ∈ list) ↔ told = entry := fun told =>
        (htold told).trans (and_iff_left ⟨own, heard⟩)
      exact .informed own (state.hear heach htold' (exists_other_hear hne entry))
        (List.mem_append_left _ heard)

/-- Whoever has just been heard is told of all who have been heard before. -/
theorem good_of_heard {own : PeerEntry} (hsession : node.session.Announced own)
    (hsent : node.sent = []) (hcoming : node.coming pending = [])
    (hdirectory : node.session.directory = []) {lists : List (List PeerEntry)}
    (hlengths : ∀ list ∈ lists, list.length ≤ maxListLength)
    (htold : ∀ told, (∃ list ∈ lists, told ∈ list) ↔
      ∃ third, third ≠ handle ∧ (third, told) ∈ handled) :
    Good (handled ++ [(handle, own)]) handle node
      (pending ++ lists.map Message.peersToConnect) := by
  have hlists : node.coming (pending ++ lists.map Message.peersToConnect) =
      lists.map Message.peersToConnect := by
    rw [coming, List.append_eq_nil_iff] at hcoming
    simp [coming, hcoming.1, hcoming.2]
  refine .informed own ⟨hsession, hsent, ?_, by simp [hdirectory], ?_⟩ (by simp)
  · rw [hlists]
    intro msg hmsg
    obtain ⟨list, hlist, rfl⟩ := List.mem_map.1 hmsg
    exact ⟨list, rfl, hlengths list hlist⟩
  · intro entry _
    rw [hlists]
    simp only [hdirectory, List.not_mem_nil, false_or, List.mem_map, exists_exists_and_eq_and,
      Message.listed, htold]
    refine exists_congr fun third => and_congr_right ?_
    intro hne
    simp [hne]

end Node

/-! ### The invariant of a network -/

namespace Network

variable {net : Network} {handle : Handle} {node : Node}

/-- The roster knows what has been handled, and every attached peer is good. -/
structure Sound (net : Network) : Prop where
  faithful : net.roster.Faithful net.handled
  attached : ∀ handle, (net.nodes handle).isSome = (net.roster.get? handle).isSome
  good : ∀ {handle node}, net.nodes handle = some node →
    Node.Good net.handled handle node (net.roster.pending handle)

theorem sound_empty : empty.Sound where
  faithful := .empty
  attached := fun _ => rfl
  good := fun hnode => by cases hnode

/-- Something happens to one peer and to the roster. -/
theorem Sound.change (h : net.Sound) (hnode : net.nodes handle = some node) {node' : Node}
    {roster : Roster} {handled : List (Handle × PeerEntry)} (hfaithful : roster.Faithful handled)
    (hget : ∀ other, (roster.get? other).isSome = (net.roster.get? other).isSome)
    (hself : Node.Good handled handle node' (roster.pending handle))
    (hothers : ∀ {other peer}, other ≠ handle → net.nodes other = some peer →
      Node.Good handled other peer (roster.pending other)) :
    (({ net with roster := roster, handled := handled } : Network).setNode handle node').Sound where
  faithful := hfaithful
  attached := by
    intro other
    refine Eq.trans ?_ ((h.attached other).trans (hget other).symm)
    simp only [setNode]
    split
    next hsame => rw [hsame, hnode]; rfl
    next => rfl
  good := by
    intro other peer hother
    simp only [setNode] at hother
    split at hother
    next hsame =>
      cases hother
      rw [hsame]
      exact hself
    next hne => exact hothers hne hother

theorem Sound.setNode (h : net.Sound) (hnode : net.nodes handle = some node) {node' : Node}
    (hgood : Node.Good net.handled handle node' (net.roster.pending handle)) :
    (net.setNode handle node').Sound :=
  h.change hnode h.faithful (fun _ => rfl) hgood fun _ hother => h.good hother

theorem Sound.member (h : net.Sound) (hnode : net.nodes handle = some node) :
    ∃ member, net.roster.get? handle = some member := by
  have hattached := h.attached handle
  rw [hnode, Option.isSome_some, eq_comm] at hattached
  exact Option.isSome_iff_exists.1 hattached

theorem Sound.sendDown (h : net.Sound) (hnode : net.nodes handle = some node) {msg : Message}
    {rest : List Message} (hpending : net.roster.pending handle = msg :: rest) :
    ({ net with roster := (net.roster.takeNext handle).2 }.setNode handle
      { node with down := put node.down msg }).Sound := by
  have hafter := net.roster.pending_takeNext h.faithful.wellFormed handle
  have hgood := h.good hnode
  rw [hpending] at hgood
  refine h.change hnode (h.faithful.takeNext handle) ?_ ?_ ?_
  · intro other
    rw [Roster.get?_takeNext]
    split <;> simp
  · rw [hafter, if_pos rfl, hpending]
    exact hgood.sendDown
  · intro other peer hne hother
    rw [hafter, if_neg hne]
    exact h.good hother

/-- The roster handles an announcement that has come out of the link. -/
theorem Sound.receiveUp (h : net.Sound) (hnode : net.nodes handle = some node) {frame : Bytes}
    {rest : List Bytes} (hup : node.up = frame :: rest) {msg : Message}
    (hreceived : received frame = some msg) :
    ((net.setNode handle { node with up := rest }).deliver handle msg).Sound := by
  obtain ⟨own, rfl, hsession, hsent, hcoming, hdirectory, hunheard⟩ :=
    (h.good hnode).receiveUp hup hreceived
  obtain ⟨member, hget⟩ := h.member hnode
  -- It is the first announcement of this peer, as none of it has been handled.
  have hfirst : member.entry = none := by
    cases hentry : member.entry with
    | none => rfl
    | some entry => exact absurd ((h.faithful.entry hget entry).1 hentry) (hunheard entry)
  show (({ net with
    roster := (net.roster.introduce handle own).val.2
    handled := net.handled ++ [(handle, own)] } : Network).setNode handle
      { node with up := rest }).Sound
  refine h.change hnode (h.faithful.introduce hget hfirst own) ?_ ?_ ?_
  · intro other
    obtain ⟨entries, slots, hslots⟩ := net.roster.get?_introduce handle own other
    rw [hslots]
    simp
  · obtain ⟨lists, hpending, hlengths, -, htold⟩ :=
      h.faithful.pending_introduce hget hfirst own handle
    rw [hpending]
    have hsession' : ({ node with up := rest } : Node).session.Announced own := hsession
    refine Node.good_of_heard hsession' hsent hcoming hdirectory hlengths ?_
    intro told
    rw [htold, if_pos rfl]
  · intro other peer hne hother
    obtain ⟨lists, hpending, -, heach, htold⟩ :=
      h.faithful.pending_introduce hget hfirst own other
    rw [hpending]
    refine (h.good hother).hear hne (heach hne) ?_
    intro told
    rw [htold, if_neg hne]

theorem Sound.perform (h : net.Sound) (hnode : net.nodes handle = some node) (move : Move) :
    (net.perform handle node move).Sound := by
  have hgood := h.good hnode
  cases move with
  | tick now => exact h.setNode hnode (hgood.tick now)
  | packet msg sender now => exact h.setNode hnode (hgood.packet msg sender now)
  | sendUp =>
      simp only [Network.perform, Session.takeControl]
      cases hqueue : node.session.controlQueue with
      | nil => exact h
      | cons msg rest => exact h.setNode hnode (hgood.sendUp hqueue)
  | receiveUp =>
      simp only [Network.perform]
      split
      next => exact h
      next frame rest hup =>
        split
        next msg hreceived => exact h.receiveUp hnode hup hreceived
        next hlost => exact h.setNode hnode (hgood.dropUp hup hlost)
  | sendDown =>
      -- What is taken is the first of the messages under way from the roster.
      simp only [Network.perform]
      have hfirst := Roster.fst_takeNext h.faithful.wellFormed handle
      split
      next msg roster heq =>
        rw [heq] at hfirst
        obtain ⟨rest, hpending⟩ := List.head?_eq_some_iff.1 hfirst.symm
        obtain rfl : (net.roster.takeNext handle).2 = roster := congrArg Prod.snd heq
        exact h.sendDown hnode hpending
      next => exact h
  | receiveDown =>
      simp only [Network.perform]
      split
      next => exact h
      next frame rest hdown =>
        split
        next msg hreceived => exact h.setNode hnode (hgood.receiveDown hdown hreceived)
        next hlost => exact h.setNode hnode (hgood.dropDown hdown hlost)

theorem Sound.attach (h : net.Sound) (stream : FramedStream) {addr : SocketAddr}
    (hadmits : net.admits addr = true) (timer : Timer) {session : Session}
    (hsession : session.Unannounced) :
    (({ net with roster := (net.roster.enroll stream addr timer).val.2 } : Network).setNode
      (net.roster.enroll stream addr timer).val.1 ⟨session, [], []⟩).Sound := by
  simp only [admits, Bool.and_eq_true, List.all_eq_true, decide_eq_true_eq] at hadmits
  obtain ⟨hview, hothers⟩ := hadmits
  obtain ⟨key, hkey⟩ := Option.isSome_iff_exists.1 hview
  have hwf := h.faithful.wellFormed
  have hfaithful := h.faithful.enroll stream hkey
    (fun hget heq => hothers _ (hwf.members.mem_toList.2 hget) (heq.trans hkey.symm)) timer
  have hget := Roster.get?_enroll hwf stream addr timer
  have hnone := Roster.get?_fst_enroll hwf stream addr timer
  have hpending := Roster.pending_enroll hwf stream addr timer
  refine ⟨hfaithful, ?_, ?_⟩
  · intro other
    simp only [Network.setNode, hget]
    split
    next => rfl
    next => exact h.attached other
  · intro other peer hpeer
    simp only [Network.setNode] at hpeer ⊢
    rw [hpending]
    split at hpeer
    next hsame =>
      -- The new peer: its handle named nobody, so nothing is queued and nothing was handled.
      cases hpeer
      have habsent := Roster.pending_of_absent hnone
      rw [hsame, habsent]
      refine .silent ⟨hsession, ?_, rfl⟩ ?_
      · simp [Node.sent, hsession.control]
      · intro entry hmade
        obtain ⟨member, hmember⟩ := h.faithful.attached hmade
        rw [hnone] at hmember
        cases hmember
    next => exact h.good hpeer

theorem Sound.step (h : net.Sound) (action : Action) : (net.step action).Sound := by
  cases action with
  | attach stream addr timer coordinator localAddr pace now =>
      simp only [Network.step]
      split
      next hadmits =>
        exact h.attach stream hadmits timer
          (Session.unannounced_start coordinator localAddr pace now)
      next => exact h
  | move handle move =>
      simp only [Network.step]
      split
      next node hnode => exact h.perform hnode move
      next => exact h

/-- The invariant holds after any actions. -/
theorem sound_run (actions : List Action) : (empty.run actions).Sound := by
  have hrun : ∀ (actions : List Action) (net : Network), net.Sound → (net.run actions).Sound := by
    intro actions
    induction actions with
    | nil => exact fun _ h => h
    | cons action actions ih => exact fun net h => ih (net.step action) (h.step action)
  exact hrun actions empty sound_empty

/-! ### Who has been heard -/

/-- What is known and what is coming, for a peer whose announcement has been handled. -/
theorem Sound.informed (h : net.Sound) {own : PeerEntry} (hnode : net.nodes handle = some node)
    (hheard : (handle, own) ∈ net.handled) :
    node.Informed (net.roster.pending handle) own fun entry =>
      ∃ other, other ≠ handle ∧ (other, entry) ∈ net.handled := by
  cases h.good hnode with
  | silent state unheard => exact absurd hheard (unheard own)
  | announcing own' state unheard => exact absurd hheard (unheard own)
  | informed own' state heard =>
      -- The roster holds one entry for the peer, so both announcements are of the same.
      obtain ⟨member, hget⟩ := h.member hnode
      have hfirst := (h.faithful.entry hget own).2 hheard
      have hsecond := (h.faithful.entry hget own').2 heard
      obtain rfl : own = own' := Option.some.inj (hfirst.symm.trans hsecond)
      exact state

/-- An announcement that has been handled is that of somebody attached. -/
theorem Sound.node_of_handled (h : net.Sound) {own : PeerEntry}
    (hheard : (handle, own) ∈ net.handled) :
    ∃ node, net.nodes handle = some node ∧ node.session.ownEntry = some own := by
  obtain ⟨member, hget⟩ := h.faithful.attached hheard
  have hattached := h.attached handle
  rw [hget, Option.isSome_some] at hattached
  obtain ⟨node, hnode⟩ := Option.isSome_iff_exists.1 hattached
  exact ⟨node, hnode, (h.informed hnode hheard).session.own⟩

/-- When nothing is under way, whoever has announced itself has been heard. -/
theorem Sound.heard_of_quiescent (h : net.Sound) (hquiescent : net.Quiescent) {own : PeerEntry}
    (hnode : net.nodes handle = some node) (hown : node.session.ownEntry = some own) :
    (handle, own) ∈ net.handled := by
  obtain ⟨hqueue, hup, -, -⟩ := hquiescent handle node hnode
  cases h.good hnode with
  | silent state _ =>
      rw [state.session.ownEntry_eq] at hown
      cases hown
  | announcing own' state _ =>
      have hsent := state.sent
      simp [Node.sent, hqueue, hup] at hsent
  | informed own' state heard =>
      obtain rfl : own = own' := Option.some.inj (hown.symm.trans state.session.own)
      exact heard

/-! ### Main result -/

/-- Whatever has happened in a network:

1. For a peer whose announcement has been handled, the entries that its session knows and
   those on lists under way to it are, its own aside, the entries of all others whose
   announcements have been handled.
2. No list is under way to a session that would ignore it.
3. When nothing is under way any more, every session that has announced itself knows
   exactly the entries of all others that have, its own aside. -/
theorem converges (actions : List Action) :
    let net := empty.run actions
    (∀ handle node own, net.nodes handle = some node → (handle, own) ∈ net.handled →
      node.session.ownEntry = some own ∧
        ∀ entry, (entry ≠ own ∧ (entry ∈ node.session.directory ∨
            ∃ entries, .peersToConnect entries ∈ net.coming handle node ∧ entry ∈ entries)) ↔
          (entry ≠ own ∧ ∃ other, other ≠ handle ∧ (other, entry) ∈ net.handled)) ∧
    (∀ handle node entries, net.nodes handle = some node →
      .peersToConnect entries ∈ net.coming handle node →
        node.session.phase.listens = true ∧ node.session.publicAddr.isSome = true) ∧
    (net.Quiescent → ∀ handle node own, net.nodes handle = some node →
      node.session.ownEntry = some own →
        ∀ entry, entry ∈ node.session.directory ↔
          (entry ≠ own ∧ ∃ other peer, other ≠ handle ∧ net.nodes other = some peer ∧
            peer.session.ownEntry = some entry)) := by
  intro net
  have h : net.Sound := sound_run actions
  have hlisted : ∀ {node : Node} {handle entry}, (∃ entries,
      .peersToConnect entries ∈ net.coming handle node ∧ entry ∈ entries) ↔
        ∃ msg ∈ node.coming (net.roster.pending handle), entry ∈ msg.listed := by
    intro node handle entry
    constructor
    · rintro ⟨entries, hcoming, hentry⟩
      exact ⟨.peersToConnect entries, hcoming, hentry⟩
    · rintro ⟨msg, hcoming, hentry⟩
      cases msg with
      | peersToConnect entries => exact ⟨entries, hcoming, hentry⟩
      | _ => cases hentry
  refine ⟨?_, ?_, ?_⟩
  · intro handle node own hnode hheard
    have hstate := h.informed hnode hheard
    refine ⟨hstate.session.own, fun entry => and_congr_right ?_⟩
    intro hne
    rw [hlisted]
    exact hstate.complete entry hne
  · intro handle node entries hnode hcoming
    cases h.good hnode with
    | silent state _ => simp [Network.coming, state.coming] at hcoming
    | announcing own state _ => simp [Network.coming, state.coming] at hcoming
    | informed own state _ =>
        have hown := state.session.own
        exact ⟨state.session.listens, by simpa [Session.ownEntry] using congrArg Option.isSome hown⟩
  · intro hquiescent handle node own hnode hown entry
    have hstate := h.informed hnode (h.heard_of_quiescent hquiescent hnode hown)
    obtain ⟨-, -, hdown, hpending⟩ := hquiescent handle node hnode
    have hcoming : node.coming (net.roster.pending handle) = [] := by
      simp [Node.coming, hdown, hpending]
    have hcomplete := hstate.complete entry
    simp only [hcoming, List.not_mem_nil, false_and, exists_false, or_false] at hcomplete
    constructor
    · intro hknown
      have hne : entry ≠ own := fun heq => hstate.notOwn (heq ▸ hknown)
      obtain ⟨other, hother, hmade⟩ := (hcomplete hne).1 hknown
      obtain ⟨peer, hpeer, hentry⟩ := h.node_of_handled hmade
      exact ⟨hne, other, peer, hother, hpeer, hentry⟩
    · rintro ⟨hne, other, peer, hother, hpeer, hentry⟩
      exact (hcomplete hne).2 ⟨other, hother, h.heard_of_quiescent hquiescent hpeer hentry⟩

/-- A peer attaches and learns its address. -/
def arrival (handle : Handle) (host : UInt8) : List Action :=
  let coordinator : SocketAddr := .v4 ⟨.ofOctets 192 0 2 1, 3478⟩
  let observed : SocketV4 := ⟨.ofOctets 203 0 113 host, 5000⟩
  [.attach (.ofStream ⟨handle.index⟩) (.v4 observed) ⟨.origin, none⟩ coordinator
      ⟨.ofOctets 10 0 0 host, 6000⟩ .default .origin,
    .move handle (.tick .origin),
    .move handle (.packet (.stunResponse observed) coordinator .origin)]

/-- Two peers arrive, both announce themselves, and each takes in the first list for it. -/
def meeting : List Action :=
  arrival ⟨0⟩ 7 ++ arrival ⟨1⟩ 8 ++
    [.move ⟨0⟩ .sendUp, .move ⟨1⟩ .sendUp, .move ⟨0⟩ .receiveUp, .move ⟨0⟩ .sendDown,
      .move ⟨1⟩ .receiveUp, .move ⟨1⟩ .sendDown, .move ⟨0⟩ .receiveDown, .move ⟨1⟩ .receiveDown]

-- The first peer was first, so its first list is empty; the second is already under way.
example : ((empty.run meeting).nodes ⟨0⟩).map (fun node => node.session.directory) = some [] ∧
    (empty.run meeting).roster.pending ⟨0⟩ =
      [.peersToConnect [⟨⟨.ofOctets 203 0 113 8, 5000⟩, ⟨.ofOctets 10 0 0 8, 6000⟩⟩]] ∧
    ((empty.run meeting).nodes ⟨1⟩).map (fun node => node.session.directory) =
      some [⟨⟨.ofOctets 203 0 113 7, 5000⟩, ⟨.ofOctets 10 0 0 7, 6000⟩⟩] := by
  decide +kernel

end Network
end Rendezvous
