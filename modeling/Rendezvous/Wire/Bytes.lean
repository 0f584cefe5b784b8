import Rendezvous.Error

/-!
# Rendezvous.Wire.Bytes

**Big-endian words in byte lists.** Words are written most significant byte
first (`bytes16`, `bytes32`) and read back through a `Cursor`, which counts what
it has consumed. A read that the bytes left cannot satisfy fails and consumes
nothing.
-/

namespace Rendezvous

/-- A string of bytes. -/
abbrev Bytes := List UInt8

/-! ### Words -/

/-- The bytes of a 16-bit word, most significant first. -/
def bytes16 (n : UInt16) : Bytes :=
  [(n >>> 8).toUInt8, n.toUInt8]

/-- The bytes of a 32-bit word, most significant first. -/
def bytes32 (n : UInt32) : Bytes :=
  [(n >>> 24).toUInt8, (n >>> 16).toUInt8, (n >>> 8).toUInt8, n.toUInt8]

/-- The 16-bit word with the given bytes, most significant first. -/
def word16 (a b : UInt8) : UInt16 :=
  a.toUInt16 <<< 8 ||| b.toUInt16

/-- The 32-bit word with the given bytes, most significant first. -/
def word32 (a b c d : UInt8) : UInt32 :=
  a.toUInt32 <<< 24 ||| b.toUInt32 <<< 16 ||| c.toUInt32 <<< 8 ||| d.toUInt32

@[simp] theorem length_bytes16 (n : UInt16) : (bytes16 n).length = 2 := rfl

@[simp] theorem length_bytes32 (n : UInt32) : (bytes32 n).length = 4 := rfl

/-- The 32-bit word at the head of a byte string, if it has four bytes. -/
def peekWord : Bytes → Option UInt32
  | a :: b :: c :: d :: _ => some (word32 a b c d)
  | _ => none

@[simp] theorem peekWord_cons (a b c d : UInt8) (rest : Bytes) :
    peekWord (a :: b :: c :: d :: rest) = some (word32 a b c d) := rfl

/-! ### Reading -/

/-- A place in a byte string: what is left to read, and how much was read. -/
structure Cursor where
  rest : Bytes
  position : Nat
deriving Repr

namespace Cursor

/-- The start of a byte string. -/
def start (bytes : Bytes) : Cursor := ⟨bytes, 0⟩

/-- How many bytes are left. -/
def remaining (cur : Cursor) : Nat := cur.rest.length

/-- Reads one byte. -/
def u8 (cur : Cursor) : Except CodecError (UInt8 × Cursor) :=
  match cur.rest with
  | a :: rest => .ok (a, ⟨rest, cur.position + 1⟩)
  | _ => .error .truncated

/-- Reads a 16-bit word. -/
def u16 (cur : Cursor) : Except CodecError (UInt16 × Cursor) :=
  match cur.rest with
  | a :: b :: rest => .ok (word16 a b, ⟨rest, cur.position + 2⟩)
  | _ => .error .truncated

/-- Reads a 32-bit word. -/
def u32 (cur : Cursor) : Except CodecError (UInt32 × Cursor) :=
  match cur.rest with
  | a :: b :: c :: d :: rest => .ok (word32 a b c d, ⟨rest, cur.position + 4⟩)
  | _ => .error .truncated

end Cursor

end Rendezvous
