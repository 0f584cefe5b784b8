import Rendezvous.Coordinator.State

/-!
# Rendezvous.Coordinator.Service

**One iteration's work.** In order: at most one connection is accepted; every
member that was attached at the start is read once and written once; one datagram
is received and one sent; members that have been silent for too long are dropped.

A readiness latch is cleared only when the operation would block, or when there is
nothing to write. What goes wrong on a control connection costs that connection;
what goes wrong on the listener or the packet socket stops the loop.
-/

namespace Rendezvous
namespace Coordinator

/-! ### Accepting -/

/-- Takes in a connection. One that the poller refuses is dropped at once and not
counted. -/
def welcome (c : Coordinator) (id : StreamId) (addr : SocketAddr) (now : Instant) : Coordinator :=
  let attached := c.roster.enroll (.ofStream id) addr ⟨now, c.config.idleTimeout⟩
  let (handle, roster) := attached.val
  let c := { c with roster := roster }.write attached.log
  match c.host.register (.stream id) (tokenOfMember handle) .read with
  | (some kind, host) =>
    let c := { c with host := host }
    let c := c.note .warn s!"Failed to register connection from {addr}: {kind}"
    { c with roster := (c.roster.detach handle).2, host := c.host.close id }
  | (none, host) =>
    let counters := { c.counters with accepted := c.counters.accepted + 1 }
    let c := { c with host := host, counters := counters }.countMembers
    c.note .info s!"Accepted control connection from {addr}"

/-- Accepts at most one connection. -/
def acceptOne (c : Coordinator) (now : Instant) : Stage Coordinator :=
  if !c.listenerLatch then .going c
  else
    match c.host.accept with
    | (.ok (id, addr), host) => .going ({ c with host := host }.welcome id addr now)
    | (.error .wouldBlock, host) => .going { c with host := host, listenerLatch := false }
    | (.error kind, host) =>
      let c := { c with host := host }
      if kind = .interrupted ∨ kind = .connectionAborted then
        .going (c.note .debug s!"Transient accept error: {kind}")
      else
        .stopped c (.io kind)

/-! ### Reading -/

/-- Acts on a message from a control connection. -/
def actOnControl (c : Coordinator) (handle : Handle) (msg : Message) : Coordinator :=
  match c.roster.get? handle with
  | none => c
  | some member =>
    let addr := member.addr
    let c := c.note .debug s!"Received {msg} from {addr}"
    match msg with
    | .connect entry =>
      let announced := c.roster.introduce handle entry
      let (notified, roster) := announced.val
      let c := { c with roster := roster }.write announced.log
      match notified with
      | none => c
      | some count =>
        let counters := { c.counters with announces := c.counters.announces + 1 }
        let total := c.roster.registeredCount
        { c with counters := counters }.note .info
          s!"Peer {addr} registered; {count} other peers notified ({total} announced)"
    | .keepAlive => c.note .trace s!"Keep-alive on control connection {addr}"
    | msg => c.note .warn s!"Ignoring {msg} on control connection {addr}"

/-- Acts on everything just read off a connection. -/
def actOnDecoded (c : Coordinator) (handle : Handle) : Coordinator :=
  let msgs := c.decoded
  msgs.foldl (fun c msg => c.actOnControl handle msg) { c with decoded := [] }

/-- Notes and counts garbage that was skipped. -/
def countSkipped (c : Coordinator) (addr : SocketAddr) (skipped : Nat) : Coordinator :=
  if skipped = 0 then c
  else
    let c := c.note .warn s!"Skipped {skipped} bytes of garbage from {addr}"
    let total := c.counters.framingResyncs + UInt64.ofNat skipped
    { c with counters := { c.counters with framingResyncs := total } }

/-- Reads once from a connection and acts on the messages. What was decoded before
a failure is forgotten. -/
def readMember (c : Coordinator) (handle : Handle) (member : Member) (now : Instant) :
    Coordinator × Option ChannelFailure :=
  let received := member.stream.receive c.host
  let refill := fun member : Member => { member with stream := received.stream }
  let c := { c with host := received.host, decoded := c.decoded ++ received.frames }
  let c := c.modifyMember handle refill
  let c := c.countSkipped member.addr (received.stream.skipped - member.stream.skipped)
  match received.result with
  | .error e => ({ c with decoded := [] }, some e)
  | .ok .dry =>
    let rest := fun member : Member => { member with latch := member.latch.withoutRead }
    ((c.modifyMember handle rest).actOnDecoded handle, none)
  | .ok (.read count) =>
    let c := c.note .trace s!"Read {count} bytes from {member.addr}"
    let touch := fun member : Member => { member with timer := member.timer.restart now }
    ((c.modifyMember handle touch).actOnDecoded handle, none)

/-! ### Writing -/

/-- Forgets that a connection can be written to. -/
def clearMemberWrite (c : Coordinator) (handle : Handle) : Coordinator :=
  c.modifyMember handle fun member => { member with latch := member.latch.withoutWrite }

/-- Takes over a connection after a write. -/
def settleWrite (c : Coordinator) (handle : Handle) (written : FramedStream.Written) :
    Coordinator :=
  let c := { c with host := written.host }.modifyMember handle fun member =>
    { member with stream := written.stream }
  match written.result with
  | .ok .waiting => c.clearMemberWrite handle
  | _ => c

/-- Goes on with the frame in flight to a member. -/
def continueWrite (c : Coordinator) (handle : Handle) (member : Member) :
    Coordinator × Option ChannelFailure :=
  let written := member.stream.resume c.host
  let c := c.settleWrite handle written
  match written.result with
  | .error e => (c, some e)
  | .ok _ => (c, none)

/-- Notes and counts a message that was written. -/
def countSent (c : Coordinator) (msg : Message) (addr : SocketAddr) : Coordinator :=
  let c := c.note .debug s!"Sent {msg} to {addr}"
  match msg with
  | .peersToConnect _ =>
    { c with counters := { c.counters with peerListsSent := c.counters.peerListsSent + 1 } }
  | _ => c

/-- Writes a member's oldest queued message. -/
def writeNext (c : Coordinator) (handle : Handle) (member : Member) :
    Coordinator × Option ChannelFailure :=
  match c.roster.takeNext handle with
  | (none, roster) => ({ c with roster := roster }.clearMemberWrite handle, none)
  | (some msg, roster) =>
    let (written, scratch) := member.stream.transmit msg c.scratch c.host
    let c := { c with roster := roster, scratch := scratch }.settleWrite handle written
    match written.result with
    | .error e => (c, some e)
    | .ok _ => (c.countSent msg member.addr, none)

/-- Finishes the frame in flight to a member, or writes one queued message. -/
def writeMember (c : Coordinator) (handle : Handle) : Coordinator × Option ChannelFailure :=
  match c.roster.get? handle with
  | none => (c, none)
  | some member =>
    if !member.latch.writable then (c, none)
    else if member.stream.hasInFlight then c.continueWrite handle member
    else c.writeNext handle member

/-! ### Members -/

/-- Reads and writes one member. -/
def serveMember (c : Coordinator) (handle : Handle) (now : Instant) :
    Coordinator × Option ChannelFailure :=
  match c.roster.get? handle with
  | none => (c, none)
  | some member =>
    if member.latch.readable then
      match c.readMember handle member now with
      | (c, some e) => (c, some e)
      | (c, none) => c.writeMember handle
    else
      c.writeMember handle

/-- Serves one member and drops it if that fails. -/
def serveOrDismiss (now : Instant) (c : Coordinator) (handle : Handle) : Coordinator :=
  match c.serveMember handle now with
  | (c, none) => c
  | (c, some e) => c.dismiss handle (.channel e)

/-- Serves every member that is attached now, oldest first. -/
def serveMembers (c : Coordinator) (now : Instant) : Coordinator :=
  c.roster.order.foldl (serveOrDismiss now) c

/-- Drops every member that has been silent for too long. -/
def dismissIdle (c : Coordinator) (now : Instant) : Coordinator :=
  (c.roster.overdue now).foldl (fun c handle => c.dismiss handle .idle) c

/-! ### Datagrams -/

/-- Acts on a datagram. -/
def actOnPacket (c : Coordinator) (msg : Message) (sender : SocketAddr) : Coordinator :=
  let reply := answerPacket msg sender
  let c := c.write reply.log
  match reply.val with
  | .reply answer target =>
    let c := c.note .debug s!"STUN request from {sender}"
    { c with outbox := c.outbox ++ [(answer, target)] }
  | .keepAlive => { c with counters := { c.counters with keepAlives := c.counters.keepAlives + 1 } }
  | .ignored => c

/-- Receives at most one datagram. -/
def receivePacket (c : Coordinator) : Stage Coordinator :=
  if !c.packetLatch.readable then .going c
  else
    match recvDatagram c.host with
    | (.error e, host) => .stopped { c with host := host } (.channel e)
    | (.ok .absent, host) =>
      .going { c with host := host, packetLatch := c.packetLatch.withoutRead }
    | (.ok .dropped, host) => .going { c with host := host }
    | (.ok (.message msg sender), host) =>
      .going ({ c with host := host }.actOnPacket msg sender)

/-- Notes and counts a datagram that was sent. -/
def countPacket (c : Coordinator) (msg : Message) (target : SocketAddr) : Coordinator :=
  let c := c.note .trace s!"Sent {msg} to {target}"
  match msg with
  | .stunResponse _ =>
    { c with counters := { c.counters with stunResponses := c.counters.stunResponses + 1 } }
  | _ => c

/-- Sends at most one datagram. It leaves the queue when it has been sent. -/
def sendPacket (c : Coordinator) : Stage Coordinator :=
  if !c.packetLatch.writable then .going c
  else
    match c.outbox with
    | [] => .going { c with packetLatch := c.packetLatch.withoutWrite }
    | (msg, target) :: rest =>
      match sendDatagram msg target c.scratch c.host with
      | (.error e, scratch, host) => .stopped { c with scratch := scratch, host := host } (.channel e)
      | (.ok .finished, scratch, host) =>
        .going ({ c with scratch := scratch, host := host, outbox := rest }.countPacket msg target)
      | (.ok .waiting, scratch, host) =>
        .going
          { c with scratch := scratch, host := host, packetLatch := c.packetLatch.withoutWrite }

/-- Receives one datagram and sends one. -/
def servePackets (c : Coordinator) : Stage Coordinator :=
  c.receivePacket.andThen sendPacket

/-! ### Everything -/

/-- All work of an iteration. The clock is read before it and once more before idle
members are dropped, and moves by the lag in between. Scratch memory is freed at the
end. -/
def serve (c : Coordinator) (lag : Duration) : Stage Coordinator :=
  let level := c.scratch.level
  let now := c.host.clock
  (c.acceptOne now).andThen fun c =>
    (c.serveMembers now).servePackets.andThen fun c =>
      let c := c.elapse lag
      let c := c.dismissIdle c.host.clock
      .going { c with scratch := c.scratch.releaseTo level }

end Coordinator
end Rendezvous
