import Rendezvous.Memory.Scratch
import Rendezvous.Wire.Message
import Rendezvous.Wire.Put

/-!
# Rendezvous.Wire.Codec

**Frames.** A message travels as one frame: the magic word `TENT`, the length of
the whole frame, a type tag, and the fields of the message, all big-endian.

* `Message.puts` lists what is written, field by field. The same list is counted
  to size the frame and then written, so both passes agree.
* `writeFrame` writes a frame at the start of a buffer and leaves the rest of the
  buffer alone; `encode` makes a frame of its own, and `encodeScratch` makes one in
  scratch memory.
* `decode` reads one frame that occupies all of its bytes.
* `declaredLength` reads the length off a header without looking further; it is
  what cuts a stream into frames.
-/

namespace Rendezvous

/-- The first word of every frame, `TENT`. -/
def magic : UInt32 := 0x54454e54

/-- Bytes of the magic and the length field. -/
def headerLength : Nat := 8

/-- Bytes of the shortest frame: a header and a type tag. -/
def minFrameLength : Nat := headerLength + 1

/-- Bytes of one entry of a peer list. -/
def entryLength : Nat := 12

/-- The largest value of a length or count field. -/
def maxWord : Nat := 4294967295

/-- The size reported for a message too long to be counted. -/
def unboundedSize : Nat := 18446744073709551615

/-! ### Writing -/

namespace SocketV4

/-- An address on the wire: its 32 bits and its port. -/
def puts (addr : SocketV4) : List Put :=
  [.u32 addr.ip.bits, .u16 addr.port]

end SocketV4

namespace PeerEntry

/-- An entry on the wire: the public address, then the local one. -/
def puts (entry : PeerEntry) : List Put :=
  entry.publicAddr.puts ++ entry.localAddr.puts

end PeerEntry

namespace Message

/-- The fields of a message after its type tag. -/
def payloadPuts : Message → List Put
  | stunRequest => []
  | stunResponse observed => observed.puts
  | keepAlive => []
  | connect entry => entry.puts
  | peersToConnect entries =>
    .u32 (UInt32.ofNat entries.length) :: entries.flatMap PeerEntry.puts

/-- Everything written for a message in a frame of the given length. -/
def puts (msg : Message) (frameLength : UInt32) : List Put :=
  .u32 magic :: .u32 frameLength :: .u8 msg.kind.tag :: msg.payloadPuts

/-- Can the count field hold the number of entries? -/
def countable : Message → Bool
  | peersToConnect entries => decide (entries.length ≤ maxWord)
  | _ => true

/-- The length of the frame of a message. -/
def encodedLength (msg : Message) : Except CodecError Nat :=
  if msg.countable then .ok (Put.total (msg.puts 0)) else .error (.frameTooLarge unboundedSize)

/-- Writes the frame of a message at the start of a buffer, answering its length
and the buffer afterwards. A failed write leaves the buffer as it was. -/
def writeFrame (msg : Message) (buffer : Bytes) : Except CodecError Nat × Bytes :=
  match msg.encodedLength with
  | .error e => (.error e, buffer)
  | .ok length =>
    if buffer.length < length then
      (.error (.bufferTooSmall length buffer.length), buffer)
    else if maxWord < length then
      (.error (.frameTooLarge length), buffer)
    else
      let writer := (BoundedWriter.ofBuffer (buffer.take length)).putAll (msg.puts (UInt32.ofNat length))
      (.ok length, writer.buffer ++ buffer.drop length)

/-- The frame of a message. -/
def encode (msg : Message) : Except CodecError Bytes := do
  let length ← msg.encodedLength
  let (written, buffer) := msg.writeFrame (List.replicate length 0)
  let _ ← written
  return buffer

/-- The alignment of frames in scratch memory. -/
def frameAlignment : Nat := 8

/-- Writes the frame of a message into a fresh range of scratch memory. -/
def encodeScratch (msg : Message) (scratch : Scratch) : Except CodecError Bytes × Scratch :=
  match msg.encodedLength with
  | .error e => (.error e, scratch)
  | .ok length =>
    let (span, scratch) := scratch.reserve length frameAlignment
    let (written, buffer) := msg.writeFrame (scratch.bytes span)
    let scratch := scratch.write span.start buffer
    (written.map fun _ => scratch.bytes span, scratch)

end Message

/-! ### Reading -/

/-- Does a byte string start with the magic word? -/
def startsWithMagic (bytes : Bytes) : Bool :=
  peekWord bytes == some magic

/-- The frame length that a header declares, if the bytes hold a header. -/
def declaredLength (bytes : Bytes) : Option Nat :=
  if startsWithMagic bytes then (peekWord (bytes.drop 4)).map UInt32.toNat else none

namespace Cursor

/-- Reads an address. -/
def address (cur : Cursor) : Except CodecError (SocketV4 × Cursor) := do
  let (bits, cur) ← cur.u32
  let (port, cur) ← cur.u16
  return (⟨⟨bits⟩, port⟩, cur)

/-- Reads an entry. -/
def entry (cur : Cursor) : Except CodecError (PeerEntry × Cursor) := do
  let (publicAddr, cur) ← cur.address
  let (localAddr, cur) ← cur.address
  return (⟨publicAddr, localAddr⟩, cur)

/-- Reads a given number of entries. -/
def entries : Nat → Cursor → Except CodecError (List PeerEntry × Cursor)
  | 0, cur => .ok ([], cur)
  | count + 1, cur => do
    let (first, cur) ← cur.entry
    let (more, cur) ← entries count cur
    return (first :: more, cur)

/-- Reads the fields of a message of the given kind. A count that the bytes left
cannot hold is refused before any entry is read. -/
def payload (cur : Cursor) : MessageKind → Except CodecError (Message × Cursor)
  | .stunRequest => .ok (.stunRequest, cur)
  | .keepAlive => .ok (.keepAlive, cur)
  | .stunResponse => do
    let (observed, cur) ← cur.address
    return (.stunResponse observed, cur)
  | .connect => do
    let (entry, cur) ← cur.entry
    return (.connect entry, cur)
  | .peersToConnect => do
    let (count, cur) ← cur.u32
    if cur.remaining / entryLength < count.toNat then throw .truncated
    let (entries, cur) ← entries count.toNat cur
    return (.peersToConnect entries, cur)

end Cursor

namespace Message

/-- Reads the one frame that the bytes are. -/
def decode (bytes : Bytes) : Except CodecError Message := do
  let (word, cur) ← (Cursor.start bytes).u32
  if word ≠ magic then throw (.badMagic word)
  let (declared, cur) ← cur.u32
  if declared.toNat ≠ bytes.length then throw (.lengthMismatch declared.toNat bytes.length)
  let (tag, cur) ← cur.u8
  let kind ← MessageKind.ofTag tag
  let (msg, cur) ← cur.payload kind
  if cur.remaining ≠ 0 then throw (.trailingBytes cur.remaining)
  return msg

end Message

end Rendezvous
