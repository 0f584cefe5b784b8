import Rendezvous.Peer.State

/-!
# Rendezvous.Peer.Service

**One iteration's work of a client.** In order: the connect is finished, if it is
not yet; the control connection is read once and written once; one datagram is
received and one sent. Any failure stops the loop.

A readiness latch is cleared only when the operation would block, when there is
nothing to write, or while the connection is not connected yet.
-/

namespace Rendezvous
namespace Client

/-! ### Connecting -/

/-- Asks whether the connection is connected. If it is not, its readiness told
nothing, and the latches are cleared. -/
def checkConnected (c : Client) : Stage Client :=
  match c.host.takeError with
  | (some kind, host) => .stopped { c with host := host } (.channel (.io kind))
  | (none, host) =>
    match host.farAddr with
    | (none, host) =>
      let c := { c with host := host }
      let c := c.note .info s!"Connected to coordinator at {c.config.controlAddr}"
      .going { c with connected := true }
    | (some .notConnected, host) => .going { c with host := host, controlLatch := .clear }
    | (some kind, host) => .stopped { c with host := host } (.channel (.io kind))

/-- Finishes the connect, once there is any sign from the connection. -/
def ensureConnected (c : Client) : Stage Client :=
  if c.connected || !c.controlLatch.isSet then .going c else c.checkConnected

/-! ### The control connection -/

/-- Feeds everything just read to the session. -/
def actOnDecoded (c : Client) : Client :=
  let receive := fun (c : Client) msg =>
    let c := c.note .debug s!"Received {msg} from coordinator"
    c.withSession (c.session.onControl msg)
  let msgs := c.decoded
  msgs.foldl receive { c with decoded := [] }

/-- Notes garbage that was skipped. -/
def noteSkipped (c : Client) (skipped : Nat) : Client :=
  if skipped = 0 then c
  else c.note .warn s!"Skipped {skipped} bytes of garbage from coordinator"

/-- Reads once from the control connection and acts on the messages. -/
def readControl (c : Client) : Stage Client :=
  let before := c.control.skipped
  let received := c.control.receive c.host
  let c :=
    { c with
      host := received.host
      control := received.stream
      decoded := c.decoded ++ received.frames }
  let skipped := received.stream.skipped - before
  match received.result with
  | .error e => .stopped c (.channel e)
  | .ok .dry =>
    let c := { c with controlLatch := c.controlLatch.withoutRead }
    .going (c.noteSkipped skipped).actOnDecoded
  | .ok (.read count) =>
    let c := c.note .trace s!"Read {count} bytes from coordinator"
    .going (c.noteSkipped skipped).actOnDecoded

/-- Takes over the control connection after a write. -/
def settleWrite (c : Client) (written : FramedStream.Written) : Stage Client :=
  let c := { c with host := written.host, control := written.stream }
  match written.result with
  | .error e => .stopped c (.channel e)
  | .ok .waiting => .going { c with controlLatch := c.controlLatch.withoutWrite }
  | .ok .finished => .going c

/-- Finishes the frame in flight, or writes one message of the session. -/
def writeControl (c : Client) : Stage Client :=
  if c.control.hasInFlight then c.settleWrite (c.control.resume c.host)
  else
    match c.session.takeControl with
    | (none, _) => .going { c with controlLatch := c.controlLatch.withoutWrite }
    | (some msg, session) =>
      let c := { c with session := session }.note .debug s!"Sending {msg} to coordinator"
      let (written, scratch) := c.control.transmit msg c.scratch c.host
      { c with scratch := scratch }.settleWrite written

/-- Reads and writes the control connection as far as its latches allow. -/
def exchangeControl (c : Client) : Stage Client :=
  (if c.controlLatch.readable then c.readControl else .going c).andThen fun c =>
    if c.controlLatch.writable then c.writeControl else .going c

/-- All work of the control connection: none before it is connected. -/
def serveControl (c : Client) : Stage Client :=
  c.ensureConnected.andThen fun c => if c.connected then c.exchangeControl else .going c

/-! ### Datagrams -/

/-- Receives at most one datagram. -/
def receivePacket (c : Client) (now : Instant) : Stage Client :=
  if !c.packetLatch.readable then .going c
  else
    match recvDatagram c.host with
    | (.error e, host) => .stopped { c with host := host } (.channel e)
    | (.ok .absent, host) =>
      .going { c with host := host, packetLatch := c.packetLatch.withoutRead }
    | (.ok .dropped, host) => .going { c with host := host }
    | (.ok (.message msg sender), host) =>
      let c := { c with host := host }.note .debug s!"Received {msg} from {sender}"
      .going (c.withSession (c.session.onPacket msg sender now))

/-- Sends at most one datagram. It leaves the queue when it has been sent. -/
def sendPacket (c : Client) : Stage Client :=
  if !c.packetLatch.writable then .going c
  else
    match c.session.packetQueue with
    | [] => .going { c with packetLatch := c.packetLatch.withoutWrite }
    | (msg, target) :: _ =>
      match sendDatagram msg target c.scratch c.host with
      | (.error e, scratch, host) => .stopped { c with scratch := scratch, host := host } (.channel e)
      | (.ok .finished, scratch, host) =>
        let c := { c with scratch := scratch, host := host, session := c.session.takePacket.2 }
        .going (c.note .trace s!"Sent {msg} to {target}")
      | (.ok .waiting, scratch, host) =>
        .going
          { c with scratch := scratch, host := host, packetLatch := c.packetLatch.withoutWrite }

/-- Receives one datagram and sends one. -/
def servePackets (c : Client) (now : Instant) : Stage Client :=
  (c.receivePacket now).andThen sendPacket

/-! ### Everything -/

/-- All work of an iteration, after which the clock has moved by the lag. Scratch memory
is freed at the end. -/
def serve (c : Client) (lag : Duration) : Stage Client :=
  let level := c.scratch.level
  c.serveControl.andThen fun c =>
    (c.servePackets c.host.clock).andThen fun c =>
      let c := c.elapse lag
      .going { c with scratch := c.scratch.releaseTo level }

end Client
end Rendezvous
