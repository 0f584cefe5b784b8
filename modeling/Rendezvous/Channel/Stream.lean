import Rendezvous.Channel.Reassembly
import Rendezvous.Host.Retry

/-!
# Rendezvous.Channel.Stream

**Messages over a byte stream.** Inbound bytes are cut into frames by a
`Reassembly`, since frames arrive split or several at a time. Outbound, a frame
that the stream takes only in part leaves its tail `inFlight`, and no
other frame is written before that tail is gone.

* `receive` reads once and decodes every frame that is complete.
* `transmit` sends a message; `resume` goes on with the tail in flight.
-/

namespace Rendezvous

/-- The capacity of a stream's receive buffer, which bounds its frames. -/
def streamCapacity : Nat := 10240

/-- The most entries of a peer list whose frame fits a receive buffer. -/
def maxListLength : Nat := (streamCapacity - minFrameLength - 4) / entryLength

theorem maxListLength_eq : maxListLength = 852 := rfl

/-- A control stream with what it has received and what it has in flight. -/
structure FramedStream where
  id : StreamId
  reassembly : Reassembly
  /-- What is still to be sent of the frame written last. -/
  inFlight : Bytes
deriving Repr

/-- How one read of a stream ended. -/
inductive ReadOutcome where
  /-- Bytes were read. -/
  | read (count : Nat)
  /-- There was nothing to read. -/
  | dry
deriving DecidableEq, Repr

/-- How a write ended. -/
inductive WriteOutcome where
  /-- Everything was taken. -/
  | finished
  /-- The transport is full for now. -/
  | waiting
deriving DecidableEq, Repr

/-! ### Writing bytes -/

/-- Offers bytes until all are taken, the stream is full or it fails, with up to
`tries` calls. Answers how many bytes were taken. -/
def sendWithin (id : StreamId) : (tries : Nat) → Bytes → Host → Except ChannelFailure Nat × Host
  | 0, _, host => (.ok 0, host)
  | tries + 1, bytes, host =>
    if bytes.isEmpty then (.ok 0, host)
    else
      match host.offer id bytes with
      | (.ok 0, host) => (.error .closed, host)
      | (.ok taken, host) =>
        let (more, host) := sendWithin id tries (bytes.drop taken) host
        (more.map (taken + ·), host)
      | (.error .wouldBlock, host) => (.ok 0, host)
      | (.error .interrupted, host) => sendWithin id tries bytes host
      | (.error kind, host) => (.error (.io kind), host)

/-- Offers bytes until all are taken, the stream is full or it fails. Every call
uses up an outcome in store, and one beyond them takes everything. -/
def sendBytes (id : StreamId) (bytes : Bytes) (host : Host) : Except ChannelFailure Nat × Host :=
  sendWithin id ((host.script id).writes.length + 1) bytes host

namespace FramedStream

/-- The framing of a fresh stream. -/
def ofStream (id : StreamId) : FramedStream :=
  ⟨id, .ofCapacity streamCapacity, []⟩

/-- Bytes dropped as garbage so far. -/
def skipped (stream : FramedStream) : Nat := stream.reassembly.skipped

/-- Is a frame in flight? -/
def hasInFlight (stream : FramedStream) : Bool := !stream.inFlight.isEmpty

/-! ### Reading -/

/-- A stream after a read, with the messages that the read completed: also when
it fails, these are the ones before the failure. -/
structure Received where
  stream : FramedStream
  host : Host
  frames : List Message
  result : Except ChannelFailure ReadOutcome

/-- Reads once and cuts off every complete frame. -/
def receive (stream : FramedStream) (host : Host) : Received :=
  match host.readUninterrupted stream.id stream.reassembly.room with
  | (.error .wouldBlock, host) => ⟨stream, host, [], .ok .dry⟩
  | (.error kind, host) => ⟨stream, host, [], .error (.io kind)⟩
  | (.ok [], host) => ⟨stream, host, [], .error .closed⟩
  | (.ok bytes, host) =>
    let drained := (stream.reassembly.append bytes).drain
    let result :=
      match drained.failure with
      | some e => .error (.protocol e)
      | none => .ok (.read bytes.length)
    ⟨{ stream with reassembly := drained.rest }, host, drained.frames, result⟩

/-! ### Writing -/

/-- A stream after a write. -/
structure Written where
  stream : FramedStream
  host : Host
  result : Except ChannelFailure WriteOutcome

/-- Goes on with the frame in flight. -/
def resume (stream : FramedStream) (host : Host) : Written :=
  if stream.inFlight.isEmpty then ⟨stream, host, .ok .finished⟩
  else
    match sendBytes stream.id stream.inFlight host with
    | (.error e, host) => ⟨stream, host, .error e⟩
    | (.ok sent, host) =>
      let left := stream.inFlight.drop sent
      ⟨{ stream with inFlight := left }, host, .ok (if left.isEmpty then .finished else .waiting)⟩

/-- Writes a message, encoded in scratch memory. To be called only when no frame
is in flight. -/
def transmit (stream : FramedStream) (msg : Message) (scratch : Scratch) (host : Host) :
    Written × Scratch :=
  match msg.encodeScratch scratch with
  | (.error e, scratch) => (⟨stream, host, .error (.protocol e)⟩, scratch)
  | (.ok bytes, scratch) =>
    match sendBytes stream.id bytes host with
    | (.error e, host) => (⟨stream, host, .error e⟩, scratch)
    | (.ok sent, host) =>
      if sent = bytes.length then (⟨stream, host, .ok .finished⟩, scratch)
      else
        let stream := { stream with inFlight := stream.inFlight ++ bytes.drop sent }
        (⟨stream, host, .ok .waiting⟩, scratch)

end FramedStream

end Rendezvous
