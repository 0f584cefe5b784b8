import Rendezvous.Proofs.Host.Datagrams
import Rendezvous.Proofs.Wire.Encoders

/-!
# Rendezvous.Proofs.Channel.Packets

**A datagram is one message, or it is dropped.** What a receive answers depends on what the
system has next and on nothing else: a channel receives into a buffer that still holds what
longer datagrams left there, and none of that is looked at.

* `PacketChannel.receive_eq`: whatever the buffer holds, a receive comes to what `recvDatagram`
  says; `fst_recvDatagram` says it of the next thing in store (`Host.nextIncoming`).
* `verdict` is what a receive answers to what came. `Judged` says of it that just the frames are
  messages, and that an error comes from a call that failed, never from what a datagram holds.
* `Dispatched` says which calls a send made and how the last of them was answered.
* `PacketChannel.exchanges_exactly` puts both sides together.
-/

namespace Rendezvous

/-! ### What comes next -/

/-- What the system has for the next receive that is not interrupted. -/
def Host.nextIncoming (host : Host) : Option Incoming :=
  host.incoming.find? fun came => came ≠ .fail .interrupted

/-- A receive is interrupted and the rest stays in store, or it answers what comes next. -/
theorem recvScript_cases (room : Nat) (incoming : List Incoming) :
    (∃ rest, incoming = .fail .interrupted :: rest ∧
        recvScript room incoming = (.error .interrupted, rest)) ∨
      ((recvScript room incoming).1 ≠ .error .interrupted ∧
        (recvScript room incoming).1 =
          (recvScript room (incoming.find? fun came => came ≠ .fail .interrupted).toList).1) := by
  cases incoming with
  | nil => exact .inr ⟨nofun, rfl⟩
  | cons came rest =>
      cases came with
      | datagram sender bytes => exact .inr ⟨nofun, rfl⟩
      | fail kind =>
          by_cases hkind : kind = .interrupted
          · subst hkind
            exact .inl ⟨rest, rfl, rfl⟩
          · refine .inr ⟨fun h => hkind (Except.error.inj h), ?_⟩
            rw [List.find?_cons_of_pos (by simpa using hkind)]
            rfl

/-- With tries for all that is in store, a receive answers what comes next. -/
theorem fst_retry_recv {room tries : Nat} {host : Host} (htries : host.incoming.length ≤ tries) :
    (retry (fun host => host.recv room) tries host).1 =
      (recvScript room host.nextIncoming.toList).1 := by
  induction tries generalizing host with
  | zero =>
      have hnone : host.incoming = [] := List.eq_nil_of_length_eq_zero (by omega)
      show (recvScript room host.incoming).1 = _
      simp [Host.nextIncoming, hnone]
  | succ tries ih =>
      unfold retry
      rcases recvScript_cases room host.incoming with ⟨rest, hincoming, hanswer⟩ | ⟨hsettled, hanswer⟩
      · obtain ⟨next, hrecv, hnext⟩ : ∃ next : Host,
            host.recv room = (.error .interrupted, next) ∧ next.incoming = rest := by
          refine ⟨(host.recv room).2, Prod.ext ?_ rfl, ?_⟩
          · show (recvScript room host.incoming).1 = _
            rw [hanswer]
          · show (recvScript room host.incoming).2 = rest
            rw [hanswer]
        rw [hrecv]
        have hfewer : next.incoming.length ≤ tries := by
          rw [hincoming, List.length_cons] at htries
          rw [hnext]
          omega
        refine (ih hfewer).trans ?_
        simp [Host.nextIncoming, hincoming, hnext]
      · split
        next next heq => exact absurd (congrArg Prod.fst heq) hsettled
        next => exact hanswer

/-- What a receive gets is no longer than there is room for. -/
theorem length_recvUninterrupted_le {room : Nat} {host : Host} {sender : SocketAddr}
    {bytes : Bytes} (h : (host.recvUninterrupted room).1 = .ok (sender, bytes)) :
    bytes.length ≤ room := by
  obtain ⟨state, hstate⟩ := retry_answer (fun host => host.recv room) host.incoming.length host
  have hanswer : (recvScript room state.incoming).1 = .ok (sender, bytes) := hstate.symm.trans h
  match hincoming : state.incoming with
  | [] =>
      rw [hincoming] at hanswer
      cases hanswer
  | .fail kind :: rest =>
      rw [hincoming] at hanswer
      cases hanswer
  | .datagram _ whole :: rest =>
      rw [hincoming] at hanswer
      cases hanswer
      exact List.length_take_le ..

/-! ### Receiving -/

/-- A datagram that decodes has the magic. -/
theorem startsWithMagic_of_decode {bytes : Bytes} {msg : Message}
    (h : Message.decode bytes = .ok msg) : startsWithMagic bytes = true := by
  have hdeclared := Message.declaredLength_of_encode (Message.encode_of_decode h)
  unfold declaredLength at hdeclared
  split at hdeclared
  next hmagic => exact hmagic
  next => cases hdeclared

/-- What a datagram amounts to: a message if it is not too long and decodes. The magic is looked
at first only for what is logged. -/
theorem Datagram.val_ofBytes (sender : SocketAddr) (bytes : Bytes) :
    (Datagram.ofBytes sender bytes).val =
      if longestDatagram < bytes.length then .dropped
      else
        match Message.decode bytes with
        | .ok msg => .message msg sender
        | .error _ => .dropped := by
  unfold Datagram.ofBytes
  split
  next => rfl
  next =>
    split
    next hmagic =>
      cases hdecode : Message.decode bytes with
      | ok msg => simp [startsWithMagic_of_decode hdecode] at hmagic
      | error e => rfl
    next =>
      cases Message.decode bytes with
      | ok msg => rfl
      | error e => rfl

/-- What a receive answers to what came: of a datagram as much as there is room for is looked
at. -/
def verdict : Option Incoming → Except ChannelFailure Datagram
  | none => .ok .absent
  | some (.fail .wouldBlock) => .ok .absent
  | some (.fail kind) => .error (.io kind)
  | some (.datagram sender bytes) => .ok (Datagram.ofBytes sender (bytes.take datagramRoom)).val

theorem fst_recvDatagram (host : Host) : (recvDatagram host).1 = verdict host.nextIncoming := by
  have hrecv : (host.recvUninterrupted datagramRoom).1 =
      (recvScript datagramRoom host.nextIncoming.toList).1 := fst_retry_recv (Nat.le_refl _)
  rcases hresult : host.recvUninterrupted datagramRoom with ⟨answer, next⟩
  rw [hresult] at hrecv
  subst hrecv
  simp only [recvDatagram, hresult]
  match host.nextIncoming with
  | none => rfl
  | some (.datagram sender bytes) => rfl
  | some (.fail kind) => cases kind <;> rfl

/-- What came and what was answered to it: a message just for a frame that is not too long, a
failure just for a call that failed. -/
structure Judged (came : Option Incoming) (answer : Except ChannelFailure Datagram) : Prop where
  message : ∀ msg sender, answer = .ok (.message msg sender) ↔
    ∃ bytes, came = some (.datagram sender bytes) ∧ bytes.length ≤ longestDatagram ∧
      msg.encode = .ok bytes
  dropped : answer = .ok .dropped ↔
    ∃ sender bytes, came = some (.datagram sender bytes) ∧
      ∀ msg : Message, ¬ (bytes.length ≤ longestDatagram ∧ msg.encode = .ok bytes)
  absent : answer = .ok .absent ↔ came = none ∨ came = some (.fail .wouldBlock)
  failed : ∀ e, answer = .error e ↔
    ∃ kind, came = some (.fail kind) ∧ kind ≠ .wouldBlock ∧ e = .io kind

/-- The one byte of room beyond the longest datagram is filled when a datagram is too long. -/
theorem val_ofBytes_take_of_long {bytes : Bytes} (sender : SocketAddr)
    (h : longestDatagram < bytes.length) :
    (Datagram.ofBytes sender (bytes.take datagramRoom)).val = .dropped := by
  have hroom : datagramRoom = longestDatagram + 1 := rfl
  have hcut : longestDatagram < (bytes.take datagramRoom).length := by
    rw [List.length_take]
    omega
  rw [Datagram.val_ofBytes, if_pos hcut]

theorem val_ofBytes_take_of_fits {bytes : Bytes} (sender : SocketAddr)
    (h : bytes.length ≤ longestDatagram) :
    (Datagram.ofBytes sender (bytes.take datagramRoom)).val =
      match Message.decode bytes with
      | .ok msg => .message msg sender
      | .error _ => .dropped := by
  have hroom : datagramRoom = longestDatagram + 1 := rfl
  rw [Datagram.val_ofBytes, List.take_of_length_le (by omega), if_neg (Nat.not_lt.2 h)]

/-- A frame that is not too long is its message. -/
theorem verdict_frame {bytes : Bytes} {msg : Message} (sender : SocketAddr)
    (hlength : bytes.length ≤ longestDatagram) (hencode : msg.encode = .ok bytes) :
    verdict (some (.datagram sender bytes)) = .ok (.message msg sender) := by
  rw [verdict, val_ofBytes_take_of_fits sender hlength, Message.decode_encode hencode]

/-- Every other datagram is dropped. -/
theorem verdict_stray {bytes : Bytes} (sender : SocketAddr)
    (h : ∀ msg : Message, ¬ (bytes.length ≤ longestDatagram ∧ msg.encode = .ok bytes)) :
    verdict (some (.datagram sender bytes)) = .ok .dropped := by
  rw [verdict]
  by_cases hlong : longestDatagram < bytes.length
  · rw [val_ofBytes_take_of_long sender hlong]
  · rw [val_ofBytes_take_of_fits sender (Nat.not_lt.1 hlong)]
    cases hdecode : Message.decode bytes with
    | error e => rfl
    | ok msg => exact absurd ⟨Nat.not_lt.1 hlong, Message.encode_of_decode hdecode⟩ (h msg)

theorem verdict_fail {kind : IoKind} (h : kind ≠ .wouldBlock) :
    verdict (some (.fail kind)) = .error (.io kind) := by
  cases kind <;> first | rfl | exact absurd rfl h

theorem judged_verdict (came : Option Incoming) : Judged came (verdict came) := by
  match came with
  | none => constructor <;> simp [verdict]
  | some (.fail kind) =>
      by_cases hkind : kind = .wouldBlock
      · subst hkind
        constructor <;> simp [verdict]
      · rw [verdict_fail hkind]
        constructor <;> simp [hkind, eq_comm]
  | some (.datagram sender bytes) =>
      by_cases hframe : ∃ msg : Message, bytes.length ≤ longestDatagram ∧ msg.encode = .ok bytes
      · obtain ⟨msg, hlength, hencode⟩ := hframe
        have hsame (other : Message) (h : other.encode = .ok bytes) : other = msg :=
          Except.ok.inj ((Message.decode_encode h).symm.trans (Message.decode_encode hencode))
        rw [verdict_frame sender hlength hencode]
        constructor
        · intro other from'
          constructor
          · intro h
            cases h
            exact ⟨bytes, rfl, hlength, hencode⟩
          · rintro ⟨_, hcame, -, hother⟩
            cases hcame
            rw [hsame other hother]
        · refine iff_of_false nofun ?_
          rintro ⟨_, _, hcame, hstray⟩
          cases hcame
          exact hstray msg ⟨hlength, hencode⟩
        · simp
        · simp
      · have hstray := not_exists.1 hframe
        rw [verdict_stray sender hstray]
        constructor
        · refine fun msg from' => iff_of_false nofun ?_
          rintro ⟨_, hcame, hmsg⟩
          cases hcame
          exact hstray msg hmsg
        · exact iff_of_true rfl ⟨sender, bytes, rfl, hstray⟩
        · simp
        · simp

namespace PacketChannel

/-- Of what is in the buffer, what was received last is looked at. -/
theorem take_buffer_fill (channel : PacketChannel) {bytes : Bytes}
    (h : bytes.length ≤ datagramRoom) : (channel.fill bytes).buffer.take bytes.length = bytes := by
  show ((bytes ++ channel.buffer.drop bytes.length).take datagramRoom).take bytes.length = bytes
  rw [List.take_take, Nat.min_eq_left h, List.take_left]

/-- Whatever the buffer holds, a receive is `recvDatagram`. -/
theorem receive_eq (channel : PacketChannel) (host : Host) :
    (channel.receive host).1 = (recvDatagram host).1 ∧
      (channel.receive host).2.2 = (recvDatagram host).2 := by
  have hlength := @length_recvUninterrupted_le datagramRoom host
  unfold receive recvDatagram
  rw [channel.length_buffer]
  rcases hresult : host.recvUninterrupted datagramRoom with ⟨answer, next⟩
  match answer with
  | .ok (sender, bytes) =>
      have hfits : bytes.length ≤ datagramRoom := hlength (congrArg Prod.fst hresult)
      simp only [channel.take_buffer_fill hfits, and_self]
  | .error kind => cases kind <;> exact ⟨rfl, rfl⟩

/-- What a channel answers with the system in these states, one after the other. -/
def answers (channel : PacketChannel) : List Host → List (Except ChannelFailure Datagram)
  | [] => []
  | host :: hosts => (channel.receive host).1 :: (channel.receive host).2.1.answers hosts

/-- However long the datagrams were that came before, each answer is that to what came. -/
theorem answers_eq (channel : PacketChannel) (hosts : List Host) :
    channel.answers hosts = hosts.map fun host => verdict host.nextIncoming := by
  induction hosts generalizing channel with
  | nil => rfl
  | cons host hosts ih =>
      rw [answers, ih, (channel.receive_eq host).1, fst_recvDatagram]
      rfl

end PacketChannel

/-! ### Sending -/

/-- What a send answers to the call that was not interrupted. -/
def settled : Except IoKind Nat → Except ChannelFailure WriteOutcome
  | .ok _ => .ok .finished
  | .error .wouldBlock => .ok .waiting
  | .error kind => .error (.io kind)

theorem settled_eq_finished_iff {outcome : Except IoKind Nat} :
    settled outcome = .ok .finished ↔ ∃ count, outcome = .ok count := by
  match outcome with
  | .ok count => exact iff_of_true rfl ⟨count, rfl⟩
  | .error kind => cases kind <;> exact iff_of_false nofun nofun

/-- A send that is interrupted uses up an outcome. -/
theorem sends_send_of_interrupted {host next : Host} {target : SocketAddr} {bytes : Bytes}
    (h : host.send target bytes = (.error .interrupted, next)) :
    next.sends.length < host.sends.length := by
  obtain rfl : (host.send target bytes).2 = next := congrArg Prod.snd h
  have hanswer : (writeScript bytes.length host.sends).1 = .error .interrupted :=
    congrArg Prod.fst h
  show (writeScript bytes.length host.sends).2.length < _
  cases hsends : host.sends with
  | nil =>
      rw [hsends] at hanswer
      cases hanswer
  | cons acceptance rest => cases acceptance <;> exact Nat.lt_succ_self _

/-- A send has handed over one datagram, or the datagram was refused: all calls but the last
were interrupted. -/
structure Dispatched (target : SocketAddr) (bytes : Bytes) (before after : Host)
    (answer : Except ChannelFailure WriteOutcome) : Prop where
  calls : ∃ count outcome, outcome ≠ .error .interrupted ∧ answer = settled outcome ∧
    after.calls = before.calls ++
      List.replicate count (.send target bytes (.error .interrupted)) ++ [.send target bytes outcome]
  finished : answer = .ok .finished → datagramsOut (before.callsSince after) = [(target, bytes)]
  unfinished : answer ≠ .ok .finished → datagramsOut (before.callsSince after) = []

namespace Dispatched

variable {target : SocketAddr} {bytes : Bytes} {before after : Host}

/-- What is not a call does not matter. -/
theorem of_calls_eq {answer : Except ChannelFailure WriteOutcome} {other : Host}
    (h : Dispatched target bytes before after answer) (hcalls : other.calls = after.calls) :
    Dispatched target bytes before other answer := by
  obtain ⟨hanswer, hfinished, hunfinished⟩ := h
  constructor <;> simpa only [Host.callsSince, hcalls]

theorem of_calls {outcome : Except IoKind Nat} {count : Nat} (hsettled : outcome ≠ .error .interrupted)
    (hcalls : after.calls = before.calls ++
      List.replicate count (.send target bytes (.error .interrupted)) ++
        [.send target bytes outcome]) :
    Dispatched target bytes before after (settled outcome) := by
  have hout : datagramsOut (before.callsSince after) =
      (Call.datagramOut? (.send target bytes outcome)).toList := by
    rw [Host.callsSince_eq (by rw [hcalls, List.append_assoc]), datagramsOut_append]
    have hinterrupted : datagramsOut
        (List.replicate count (.send target bytes (.error .interrupted))) = [] := by
      simp [datagramsOut, List.filterMap_replicate, Call.datagramOut?]
    rw [hinterrupted]
    cases h : Call.datagramOut? (.send target bytes outcome) <;> simp [datagramsOut, h]
  refine ⟨⟨count, outcome, hsettled, rfl, hcalls⟩, fun h => ?_, fun h => ?_⟩
  · obtain ⟨taken, rfl⟩ := settled_eq_finished_iff.1 h
    exact hout
  · cases outcome with
    | ok taken => exact absurd rfl h
    | error kind => exact hout

end Dispatched

namespace Message

/-- The size that is said of a message for which there is no datagram: what its frame measures,
unless its entries cannot even be counted. -/
def reportedSize (msg : Message) : Nat :=
  if maxWord < msg.entryCount then unboundedSize else msg.frameLength

theorem reportedSize_of_fits {msg : Message} (h : msg.frameLength ≤ maxWord) :
    msg.reportedSize = msg.frameLength :=
  if_neg (Nat.not_lt.2 ((countable_iff msg).1 (countable_of_fits h)))

theorem encode_of_not_fits {msg : Message} (h : maxWord < msg.frameLength) :
    msg.encode = .error (.frameTooLarge msg.reportedSize) := by
  rw [encode_eq, encodedLength_eq, reportedSize]
  by_cases hmany : maxWord < msg.entryCount
  · simp only [if_pos hmany]
  · simp only [if_neg hmany, if_pos h]

end Message

variable {msg : Message} {target : SocketAddr} {scratch : Scratch} {host : Host}

/-- A message whose frame is too long for a datagram is refused before any call is made. -/
theorem sendDatagram_of_long (h : longestDatagram < msg.frameLength) :
    (sendDatagram msg target scratch host).1 =
        .error (.protocol (.frameTooLarge msg.reportedSize)) ∧
      (sendDatagram msg target scratch host).2.2 = host := by
  have hencode := msg.fst_encodeScratch scratch
  unfold sendDatagram
  rcases hscratch : msg.encodeScratch scratch with ⟨answer, next⟩
  rw [hscratch] at hencode
  by_cases hfits : msg.frameLength ≤ maxWord
  · obtain ⟨bytes, hbytes⟩ := Message.exists_encode_eq_ok_iff.2 hfits
    obtain rfl : answer = .ok bytes := hencode.trans hbytes
    have hlength := Message.length_of_encode hbytes
    simp only [hlength, if_pos h, Message.reportedSize_of_fits hfits, and_self]
  · obtain rfl : answer = .error (.frameTooLarge msg.reportedSize) :=
      hencode.trans (Message.encode_of_not_fits (Nat.not_le.1 hfits))
    exact ⟨rfl, rfl⟩

/-- Any other message is handed over as its frame. -/
theorem sendDatagram_of_fits (h : msg.frameLength ≤ longestDatagram) :
    ∃ bytes, msg.encode = .ok bytes ∧
      Dispatched target bytes host (sendDatagram msg target scratch host).2.2
        (sendDatagram msg target scratch host).1 := by
  have hword : longestDatagram ≤ maxWord := by decide
  obtain ⟨bytes, hbytes⟩ := Message.exists_encode_eq_ok_iff.2 (Nat.le_trans h hword)
  refine ⟨bytes, hbytes, ?_⟩
  have hencode := msg.fst_encodeScratch scratch
  have hlength := Message.length_of_encode hbytes
  have hsend : Dispatched target bytes host (host.sendUninterrupted target bytes).2
      (settled (host.sendUninterrupted target bytes).1) := by
    obtain ⟨hsettled, count, hcalls⟩ := retry_exact (fun host => host.sends.length)
      (fun host => host.calls_send target bytes) (fun _ _ => sends_send_of_interrupted)
      (Nat.le_refl host.sends.length)
    exact .of_calls hsettled hcalls
  unfold sendDatagram
  rcases hscratch : msg.encodeScratch scratch with ⟨answer, next⟩
  rw [hscratch] at hencode
  obtain rfl : answer = .ok bytes := hencode.trans hbytes
  simp only [if_neg (show ¬ longestDatagram < bytes.length by omega)]
  rcases hresult : host.sendUninterrupted target bytes with ⟨outcome, after⟩
  rw [hresult] at hsend
  match outcome with
  | .error kind => cases kind <;> exact hsend
  | .ok taken =>
      -- A datagram that was cut is noted in the log, which is not a call.
      by_cases hwhole : taken = bytes.length
      · simp only [if_pos hwhole]
        exact hsend
      · simp only [if_neg hwhole]
        exact hsend.of_calls_eq rfl

/-! ### Both sides -/

namespace PacketChannel

/-- **What one side sends is what the other receives, and nothing else is taken for a message.**
However many datagrams of whatever length a channel has received, each answer is the verdict on
what came to that receive: just a frame that is not too long is a message, any other datagram is
dropped, and only a call that fails is an error. A message whose frame is too long for a datagram
is refused and no call is made. For any other, all calls offer its frame to the target; the first
that is not interrupted settles the answer, and it is the only one that can have sent something,
which it has just when the send finishes. A datagram that was sent so is received as the message,
by any channel. -/
theorem exchanges_exactly :
    (∀ (channel : PacketChannel) (hosts : List Host),
      channel.answers hosts = hosts.map fun host => verdict host.nextIncoming) ∧
    (∀ came, Judged came (verdict came)) ∧
    (∀ (msg : Message) (target : SocketAddr) (scratch : Scratch) (host : Host),
      longestDatagram < msg.frameLength →
        (sendDatagram msg target scratch host).1 =
            .error (.protocol (.frameTooLarge msg.reportedSize)) ∧
          (sendDatagram msg target scratch host).2.2 = host) ∧
    ∀ (msg : Message) (target : SocketAddr) (scratch : Scratch) (host : Host),
      msg.frameLength ≤ longestDatagram →
        ∃ bytes, msg.encode = .ok bytes ∧
          Dispatched target bytes host (sendDatagram msg target scratch host).2.2
            (sendDatagram msg target scratch host).1 ∧
          ∀ (channel : PacketChannel) (far : Host) (sender : SocketAddr),
            far.nextIncoming = some (.datagram sender bytes) →
              (channel.receive far).1 = .ok (.message msg sender) := by
  refine ⟨answers_eq, judged_verdict, fun _ _ _ _ => sendDatagram_of_long, ?_⟩
  intro msg target scratch host hfits
  obtain ⟨bytes, hencode, hsent⟩ := sendDatagram_of_fits hfits
  refine ⟨bytes, hencode, hsent, fun channel far sender hnext => ?_⟩
  have hlength := Message.length_of_encode hencode
  rw [(channel.receive_eq far).1, fst_recvDatagram, hnext]
  exact verdict_frame sender (hlength ▸ hfits) hencode

/-- A list of 85 peers is too long for a datagram. A keep-alive is sent at the second try, and
received at the second try, into a buffer that is full of a longer datagram. -/
theorem exchanges_exactly_keepAlive :
    (sendDatagram (.peersToConnect (List.replicate 85 ⟨⟨⟨1⟩, 2⟩, ⟨⟨3⟩, 4⟩⟩)) (.v4 ⟨⟨5⟩, 6⟩)
      ⟨[], 0⟩ .idle).1 = .error (.protocol (.frameTooLarge 1033)) ∧
    ∃ bytes, Message.keepAlive.encode = .ok bytes ∧
      Dispatched (.v4 ⟨⟨5⟩, 6⟩) bytes { Host.idle with sends := [.fail .interrupted, .upTo 9] }
        (sendDatagram .keepAlive (.v4 ⟨⟨5⟩, 6⟩) ⟨[], 0⟩
          { Host.idle with sends := [.fail .interrupted, .upTo 9] }).2.2 (.ok .finished) ∧
      ((fresh.fill (List.replicate 1025 0xee)).receive
        { Host.idle with incoming := [.fail .interrupted, .datagram (.v4 ⟨⟨7⟩, 8⟩) bytes] }).1 =
          .ok (.message .keepAlive (.v4 ⟨⟨7⟩, 8⟩)) := by
  obtain ⟨-, -, hrefused, hsent⟩ := exchanges_exactly
  obtain ⟨bytes, hencode, hdispatched, hreceived⟩ := hsent .keepAlive (.v4 ⟨⟨5⟩, 6⟩) ⟨[], 0⟩
    { Host.idle with sends := [.fail .interrupted, .upTo 9] } (by decide)
  refine ⟨(hrefused _ _ _ _ (by decide)).1, bytes, hencode, hdispatched, ?_⟩
  exact hreceived _ _ _ rfl

end PacketChannel
end Rendezvous
