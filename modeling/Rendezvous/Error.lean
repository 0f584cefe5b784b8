import Rendezvous.Text.Hex

/-!
# Rendezvous.Error

**What can go wrong, by cause.** The system reports failures by kind
(`IoKind`), the codec refuses bytes or messages (`CodecError`), and either
ends a channel, as does the far side closing it (`ChannelFailure`). A failure that
no connection can be blamed for stops an event loop (`LoopFailure`). Each type has
one `message` function, which is the only place its wording stands.
-/

namespace Rendezvous

/-! ### Failures of the system -/

/-- The kind of failure that a call to the system reports. -/
inductive IoKind where
  /-- The call would have to wait. -/
  | wouldBlock
  /-- A signal came first; the call may be repeated at once. -/
  | interrupted
  | connectionReset
  | connectionAborted
  | connectionRefused
  | notConnected
  | addrInUse
  | brokenPipe
  | permissionDenied
  | timedOut
  | unexpectedEof
  | other
deriving DecidableEq, Repr, Inhabited

namespace IoKind

/-- The text of a failure. -/
def message : IoKind → String
  | wouldBlock => "operation would block"
  | interrupted => "operation interrupted"
  | connectionReset => "connection reset"
  | connectionAborted => "connection aborted"
  | connectionRefused => "connection refused"
  | notConnected => "not connected"
  | addrInUse => "address in use"
  | brokenPipe => "broken pipe"
  | permissionDenied => "permission denied"
  | timedOut => "timed out"
  | unexpectedEof => "unexpected end of file"
  | other => "other error"

instance : ToString IoKind := ⟨message⟩

end IoKind

/-! ### Failures of the codec -/

/-- Why a frame was not read or not written. -/
inductive CodecError where
  /-- The frame starts with another word than the magic. -/
  | badMagic (word : UInt32)
  /-- The length field differs from the length of the frame. -/
  | lengthMismatch (declared actual : Nat)
  /-- The type tag belongs to no message. -/
  | unknownType (tag : UInt8)
  /-- The frame ends before its fields do. -/
  | truncated
  /-- Bytes follow the last field of the frame. -/
  | trailingBytes (count : Nat)
  /-- The frame is longer than its length field or its carrier allows. -/
  | frameTooLarge (size : Nat)
  /-- The buffer to write into is shorter than the frame. -/
  | bufferTooSmall (needed available : Nat)
deriving DecidableEq, Repr

namespace CodecError

/-- The text of a codec failure. -/
def message : CodecError → String
  | badMagic word => s!"bad magic 0x{hexTextPadded 8 word.toNat}"
  | lengthMismatch declared actual =>
    s!"length mismatch: header declares {declared} bytes, frame has {actual}"
  | unknownType tag => s!"unknown message type {tag.toNat}"
  | truncated => "truncated frame"
  | trailingBytes count => s!"{count} trailing bytes after payload"
  | frameTooLarge size => s!"frame too large: {size} bytes"
  | bufferTooSmall needed available =>
    s!"buffer too small: need {needed} bytes, have {available}"

instance : ToString CodecError := ⟨message⟩

end CodecError

/-! ### Failures of a channel -/

/-- What ends a channel. -/
inductive ChannelFailure where
  /-- The far side closed the stream: a read or a write came back with zero. -/
  | closed
  /-- The transport failed. -/
  | io (kind : IoKind)
  /-- A frame was cut correctly and did not decode, or did not encode. -/
  | protocol (error : CodecError)
deriving DecidableEq, Repr

namespace ChannelFailure

/-- The text of the failure underneath, if there is one. -/
def source : ChannelFailure → Option String
  | closed => none
  | io kind => some kind.message
  | protocol error => some error.message

/-- The text of a channel failure. -/
def message : ChannelFailure → String
  | closed => "connection closed"
  | io kind => s!"transport error: {kind}"
  | protocol error => s!"protocol error: {error}"

instance : ToString ChannelFailure := ⟨message⟩

end ChannelFailure

/-! ### Failures of a loop -/

/-- What stops an event loop. -/
inductive LoopFailure where
  | io (kind : IoKind)
  | channel (error : ChannelFailure)
deriving DecidableEq, Repr

/-- The text of a loop failure. -/
def LoopFailure.message : LoopFailure → String
  | io kind => kind.message
  | channel error => error.message

end Rendezvous
