import Rendezvous.Logging
import Rendezvous.Timing.Timer
import Rendezvous.Wire.Message

/-!
# Rendezvous.Peer.Session

**The life of a peer.** A session learns its public address from the coordinator's
packet socket, announces it over the control connection, and collects the peers
that it is told of as connect candidates. It does no input or output: messages to
send are queued, and what arrives or falls due is fed in.

* Until its public address is known, the session asks for it again whenever the
  timer fires; afterwards the timer refreshes the NAT binding.
* Only a response from the coordinator's packet address counts, and only while
  one is awaited. Peer lists count once the session has announced itself.
* The directory holds every other entry received, once each, in order of arrival.
  For each target address the first entry that leads there is a candidate.
-/

namespace Rendezvous

/-- Where a session is in its life. -/
inductive Phase where
  /-- The public address is not known and not asked for. -/
  | unknownSelf
  | awaitingStunResponse
  /-- The public address is known and not announced. -/
  | knownSelf
  | awaitingPeerList
  /-- A peer list came, and there is nobody to connect to. -/
  | hasPeerList
  /-- There is a connect candidate. -/
  | connected
deriving DecidableEq, Repr

/-- The name of a phase in log records. -/
def Phase.text : Phase → String
  | unknownSelf => "UNKNOWN_SELF"
  | awaitingStunResponse => "AWAITING_STUN_RESPONSE"
  | knownSelf => "KNOWN_SELF"
  | awaitingPeerList => "AWAITING_PEER_LIST"
  | hasPeerList => "HAS_PEER_LIST"
  | connected => "CONNECTED"

instance : ToString Phase := ⟨Phase.text⟩

/-- The address at which to try another peer. -/
structure Candidate where
  peer : PeerEntry
  target : SocketV4
  /-- Are both peers behind the same NAT? -/
  sameNat : Bool
deriving DecidableEq, Repr

/-- Peers with the same public IP are behind the same NAT and meet at the local
address; others meet at the public one. -/
def candidateFor (ourPublic : SocketV4) (peer : PeerEntry) : Candidate :=
  if peer.publicAddr.ip = ourPublic.ip then ⟨peer, peer.localAddr, true⟩
  else ⟨peer, peer.publicAddr, false⟩

/-- How often a session asks and refreshes. -/
structure Pace where
  retry : Duration
  refresh : Duration
deriving DecidableEq, Repr

/-- Ask five times a second, refresh every five seconds. -/
def Pace.default : Pace := ⟨.ofMillis 200, .ofSecs 5⟩

/-- The session of a peer. -/
structure Session where
  phase : Phase
  /-- The coordinator's packet address. -/
  coordinator : SocketAddr
  /-- The local address that is announced. -/
  localAddr : SocketV4
  publicAddr : Option SocketV4
  timer : Timer
  pace : Pace
  /-- Every other peer that was announced to us. -/
  directory : List PeerEntry
  candidates : List Candidate
  /-- Messages to send over the control connection. -/
  controlQueue : List Message
  /-- Datagrams to send. -/
  packetQueue : Outbox
deriving DecidableEq, Repr

namespace Session

/-- A new session; its first question is due at once. -/
def start (coordinator : SocketAddr) (localAddr : SocketV4) (pace : Pace) (now : Instant) :
    Session :=
  { phase := .unknownSelf, coordinator := coordinator, localAddr := localAddr, publicAddr := none
    timer := ⟨now, some .zero⟩, pace := pace, directory := [], candidates := []
    controlQueue := [], packetQueue := [] }

/-- The time until the timer fires. -/
def timeout (s : Session) (now : Instant) : Option Duration := s.timer.left now

/-! ### Queues -/

/-- Is there anything to send over the control connection? -/
def hasControl (s : Session) : Bool := !s.controlQueue.isEmpty

/-- Takes the first message for the control connection. -/
def takeControl (s : Session) : Option Message × Session :=
  (s.controlQueue.head?, { s with controlQueue := s.controlQueue.tail })

/-- Takes the first datagram. -/
def takePacket (s : Session) : Option (Message × SocketAddr) × Session :=
  (s.packetQueue.head?, { s with packetQueue := s.packetQueue.tail })

/-! ### Transitions -/

/-- Moves to another phase. -/
def enter (s : Session) (next : Phase) : Logged Session := do
  if s.phase ≠ next then Logged.write .info s!"Session {s.phase} -> {next}"
  return { s with phase := next }

/-- Queues a datagram for the coordinator and restarts the timer. -/
def sendPacket (s : Session) (msg : Message) (now : Instant) (timeout : Duration) : Session :=
  { s with
    packetQueue := s.packetQueue ++ [(msg, s.coordinator)]
    timer := ⟨now, some timeout⟩ }

/-- Asks for the public address. -/
def askAddress (s : Session) (now : Instant) : Logged Session :=
  (s.sendPacket .stunRequest now s.pace.retry).enter .awaitingStunResponse

/-- Refreshes the NAT binding. -/
def refreshBinding (s : Session) (now : Instant) : Logged Session := do
  Logged.write .trace s!"Refreshing NAT binding towards {s.coordinator}"
  return s.sendPacket .keepAlive now s.pace.refresh

/-- Announces the address pair, once the public address is known. -/
def announceSelf (s : Session) (now : Instant) : Logged Session := do
  match s.publicAddr with
  | none => return s
  | some publicAddr =>
    let entry : PeerEntry := ⟨publicAddr, s.localAddr⟩
    Logged.write .info s!"Announcing {entry}"
    let s :=
      { s with
        controlQueue := s.controlQueue ++ [Message.connect entry]
        timer := ⟨now, some s.pace.refresh⟩ }
    s.enter .awaitingPeerList

/-- Does what is due when the timer has run out. -/
def fire (s : Session) (now : Instant) : Logged Session := do
  match s.phase with
  | .unknownSelf => s.askAddress now
  | .awaitingStunResponse =>
    Logged.write .debug s!"No STUN response from {s.coordinator}, retrying"
    let s ← s.enter .unknownSelf
    s.askAddress now
  | .knownSelf => s.announceSelf now
  | .awaitingPeerList | .hasPeerList | .connected => s.refreshBinding now

/-- Does what is due, if the timer has run out. -/
def tick (s : Session) (now : Instant) : Logged Session :=
  if s.timer.ranOut now then s.fire now else pure s

/-! ### Messages -/

/-- Takes a message from the packet socket. -/
def onPacket (s : Session) (msg : Message) (sender : SocketAddr) (now : Instant) :
    Logged Session := do
  match msg with
  | .stunResponse observed =>
    if sender ≠ s.coordinator then
      Logged.write .warn s!"Ignoring STUN response from unexpected sender {sender}"
      return s
    else if s.phase ≠ .awaitingStunResponse then
      Logged.write .debug s!"Late STUN response in state {s.phase}"
      return s
    else
      Logged.write .info s!"Public address is {observed} (local {s.localAddr})"
      let s ← { s with publicAddr := some observed }.enter .knownSelf
      s.announceSelf now
  | msg =>
    Logged.write .warn s!"Ignoring {msg} from {sender} in state {s.phase}"
    return s

/-- Adds a candidate, unless its target is taken. -/
def addCandidate (s : Session) (candidate : Candidate) : Logged Session := do
  if s.candidates.any fun known => known.target = candidate.target then return s
  else
    let nat := if candidate.sameNat then " (same NAT)" else ""
    Logged.write .info
      s!"Connect candidate {candidate.target} for peer {candidate.peer}{nat}"
    return { s with candidates := s.candidates ++ [candidate] }

/-- Takes in one entry of a peer list, given our own public address. -/
def learnPeer (ourPublic : SocketV4) (s : Session) (peer : PeerEntry) : Logged Session :=
  if peer = ⟨ourPublic, s.localAddr⟩ || s.directory.contains peer then pure s
  else
    { s with directory := s.directory ++ [peer] }.addCandidate (candidateFor ourPublic peer)

/-- Takes in a peer list. -/
def learnPeers (s : Session) (peers : List PeerEntry) : Logged Session := do
  match s.publicAddr with
  | none => return s
  | some ourPublic =>
    let s ← peers.foldlM (learnPeer ourPublic) s
    if s.candidates.isEmpty then
      Logged.write .info "No other peers registered yet"
      s.enter .hasPeerList
    else
      s.enter .connected

/-- Takes a message from the control connection. -/
def onControl (s : Session) (msg : Message) : Logged Session := do
  match msg with
  | .peersToConnect peers =>
    match s.phase with
    | .awaitingPeerList | .hasPeerList | .connected => s.learnPeers peers
    | phase =>
      Logged.write .warn s!"Ignoring peer list in state {phase}"
      return s
  | msg =>
    Logged.write .warn s!"Ignoring {msg} on control connection in state {s.phase}"
    return s

end Session

end Rendezvous
