import Rendezvous.Wire.Bytes

/-!
# Rendezvous.Wire.Put

**Where written bytes go.** What is written is a list of puts, each of which is
written whole or not at all. The same list can be counted (`Put.total`), which
sizes a buffer before anything is written, or sent into a `BoundedWriter`, which
fills a buffer of fixed size from its start.

A put that does not fit the bytes left in a `BoundedWriter` is refused as a whole,
which `refused` remembers; a later, smaller put may still fit.
-/

namespace Rendezvous

/-- One write: a word of fixed width, or bytes as they are. -/
inductive Put where
  | u8 (value : UInt8)
  | u16 (value : UInt16)
  | u32 (value : UInt32)
  | raw (bytes : Bytes)
deriving DecidableEq, Repr

namespace Put

/-- The bytes that a put stands for. -/
def bytes : Put → Bytes
  | u8 value => [value]
  | u16 value => bytes16 value
  | u32 value => bytes32 value
  | raw bytes => bytes

/-- How many bytes a list of puts stands for. -/
def total : List Put → Nat
  | [] => 0
  | put :: puts => put.bytes.length + total puts

/-- The bytes that a list of puts stands for. -/
def allBytes (puts : List Put) : Bytes :=
  puts.flatMap bytes

@[simp] theorem total_nil : total [] = 0 := rfl

@[simp] theorem total_cons (put : Put) (puts : List Put) :
    total (put :: puts) = put.bytes.length + total puts := rfl

@[simp] theorem total_append (xs ys : List Put) : total (xs ++ ys) = total xs + total ys := by
  induction xs with
  | nil => simp
  | cons put xs ih => simp [ih, Nat.add_assoc]

@[simp] theorem allBytes_nil : allBytes [] = [] := rfl

@[simp] theorem allBytes_cons (put : Put) (puts : List Put) :
    allBytes (put :: puts) = put.bytes ++ allBytes puts := rfl

/-- Counting agrees with writing out. -/
theorem length_allBytes (puts : List Put) : (allBytes puts).length = total puts := by
  induction puts with
  | nil => rfl
  | cons put puts ih => simp [ih]

end Put

/-- A writer over a buffer of fixed size. The buffer is kept in two parts: what
has been written, and what still holds its old contents. -/
structure BoundedWriter where
  written : Array UInt8
  untouched : Bytes
  /-- Was a put refused because it did not fit? -/
  refused : Bool

namespace BoundedWriter

/-- A writer at the start of a buffer. -/
def ofBuffer (buffer : Bytes) : BoundedWriter := ⟨#[], buffer, false⟩

/-- How many bytes have been written. -/
def count (w : BoundedWriter) : Nat := w.written.size

/-- The whole buffer. -/
def buffer (w : BoundedWriter) : Bytes := w.written.toList ++ w.untouched

/-- Writes one put if it fits. -/
def put (w : BoundedWriter) (p : Put) : BoundedWriter :=
  let bytes := p.bytes
  if bytes.length ≤ w.untouched.length then
    { w with written := w.written ++ bytes, untouched := w.untouched.drop bytes.length }
  else
    { w with refused := true }

/-- Writes puts in order, each of them if it fits. -/
def putAll (w : BoundedWriter) (puts : List Put) : BoundedWriter :=
  puts.foldl put w

@[simp] theorem buffer_ofBuffer (buffer : Bytes) : (ofBuffer buffer).buffer = buffer := rfl

end BoundedWriter

end Rendezvous
