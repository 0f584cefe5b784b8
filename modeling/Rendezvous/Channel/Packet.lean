import Rendezvous.Channel.Stream

/-!
# Rendezvous.Channel.Packet

**Messages over datagrams.** A datagram carries exactly one frame. What is too
long, lacks the magic or does not decode is dropped, so that nothing a stranger
sends can fail a receive. A message is sent whole or not at all.

A `PacketChannel` receives into one buffer that it keeps. The loops call
`recvDatagram`, which is what a receive comes to whatever the buffer holds.
-/

namespace Rendezvous

/-- The longest datagram that is accepted or sent. -/
def longestDatagram : Nat := 1024

/-- How much is received at once: one byte beyond the longest datagram, which
tells an oversized one. -/
def datagramRoom : Nat := longestDatagram + 1

/-- What one receive gave. -/
inductive Datagram where
  | message (msg : Message) (sender : SocketAddr)
  /-- A datagram came and was dropped. -/
  | dropped
  /-- There was none. -/
  | absent
deriving DecidableEq, Repr

/-- What the contents of a datagram amount to. -/
def Datagram.ofBytes (sender : SocketAddr) (bytes : Bytes) : Logged Datagram := do
  if longestDatagram < bytes.length then
    Logged.write .warn s!"Dropping oversized datagram from {sender} ({bytes.length}+ bytes)"
    return .dropped
  else if !startsWithMagic bytes then
    Logged.write .trace s!"Dropping {bytes.length} byte datagram without magic from {sender}"
    return .dropped
  else
    match Message.decode bytes with
    | .ok msg => return .message msg sender
    | .error e =>
      Logged.write .warn s!"Dropping undecodable datagram from {sender}: {e}"
      return .dropped

/-- Receives at most one datagram. -/
def recvDatagram (host : Host) : Except ChannelFailure Datagram × Host :=
  match host.recvUninterrupted datagramRoom with
  | (.error .wouldBlock, host) => (.ok .absent, host)
  | (.error kind, host) => (.error (.io kind), host)
  | (.ok (sender, bytes), host) =>
    let datagram := Datagram.ofBytes sender bytes
    (.ok datagram.val, host.write datagram.log)

/-- A packet channel: the buffer it receives into, of which a datagram overwrites
only as much as it is long. -/
structure PacketChannel where
  buffer : Bytes
  length_buffer : buffer.length = datagramRoom

namespace PacketChannel

/-- A channel into which nothing has been received. -/
def fresh : PacketChannel := ⟨List.replicate datagramRoom 0, List.length_replicate⟩

/-- The channel after the system has put bytes at the start of its buffer. -/
def fill (channel : PacketChannel) (bytes : Bytes) : PacketChannel where
  buffer := (bytes ++ channel.buffer.drop bytes.length).take datagramRoom
  length_buffer := by
    simp only [List.length_take, List.length_append, List.length_drop, channel.length_buffer]
    omega

/-- Receives at most one datagram into the buffer, and looks at as much of it as
was received. -/
def receive (channel : PacketChannel) (host : Host) :
    Except ChannelFailure Datagram × PacketChannel × Host :=
  match host.recvUninterrupted channel.buffer.length with
  | (.error .wouldBlock, host) => (.ok .absent, channel, host)
  | (.error kind, host) => (.error (.io kind), channel, host)
  | (.ok (sender, bytes), host) =>
    let channel := channel.fill bytes
    let datagram := Datagram.ofBytes sender (channel.buffer.take bytes.length)
    (.ok datagram.val, channel, host.write datagram.log)

end PacketChannel

/-- Sends a message as one datagram, encoded in scratch memory. -/
def sendDatagram (msg : Message) (target : SocketAddr) (scratch : Scratch) (host : Host) :
    Except ChannelFailure WriteOutcome × Scratch × Host :=
  match msg.encodeScratch scratch with
  | (.error e, scratch) => (.error (.protocol e), scratch, host)
  | (.ok bytes, scratch) =>
    if longestDatagram < bytes.length then
      (.error (.protocol (.frameTooLarge bytes.length)), scratch, host)
    else
      match host.sendUninterrupted target bytes with
      | (.ok sent, host) =>
        let host :=
          if sent = bytes.length then host
          else host.note .warn s!"Short datagram send to {target}: {sent}/{bytes.length} bytes"
        (.ok .finished, scratch, host)
      | (.error .wouldBlock, host) => (.ok .waiting, scratch, host)
      | (.error kind, host) => (.error (.io kind), scratch, host)

end Rendezvous
