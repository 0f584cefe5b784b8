import Rendezvous.Wire.Bytes

/-!
# Rendezvous.Memory.Scratch

**Scratch memory.** It hands out byte ranges one after another and takes them back
all at once: `level` is how much is handed out, and `releaseTo` an earlier level
frees whatever was handed out since. It grows when a request does not fit. Fresh
memory is zero; memory that was freed keeps its bytes.
-/

namespace Rendezvous

/-- A range of bytes of scratch memory: from `start` up to, not including, `stop`. -/
structure Span where
  start : Nat
  stop : Nat
deriving DecidableEq, Repr

/-- A growing stretch of bytes of which those below `level` are handed out. -/
structure Scratch where
  cells : Bytes
  level : Nat
deriving Repr

namespace Scratch

/-- Scratch memory of a given size with nothing handed out. -/
def ofCapacity (capacity : Nat) : Scratch := ⟨List.replicate capacity 0, 0⟩

/-- The size of the memory. -/
def capacity (scratch : Scratch) : Nat := scratch.cells.length

/-- The least offset from `level` on that is a multiple of `align`, which is a
power of two. -/
def alignUp (level align : Nat) : Nat :=
  let mask := max align 1 - 1
  (level + mask) - ((level + mask) &&& mask)

/-- Bytes extended with zeros to at least double their number, if `stop` lies
beyond them. -/
def growTo (cells : Bytes) (stop : Nat) : Bytes :=
  let size := cells.length
  if size < stop then cells ++ List.replicate (max stop (size * 2) - size) 0 else cells

/-- Hands out a range of `size` bytes at a multiple of `align`. -/
def reserve (scratch : Scratch) (size align : Nat) : Span × Scratch :=
  let start := alignUp scratch.level align
  let stop := start + size
  (⟨start, stop⟩, ⟨growTo scratch.cells stop, stop⟩)

/-- Takes back everything handed out above a level. -/
def releaseTo (scratch : Scratch) (level : Nat) : Scratch :=
  { scratch with level := min level scratch.level }

/-- The bytes of a range. -/
def bytes (scratch : Scratch) (span : Span) : Bytes :=
  (scratch.cells.drop span.start).take (span.stop - span.start)

/-- Writes bytes at an offset. -/
def write (scratch : Scratch) (offset : Nat) (bytes : Bytes) : Scratch :=
  { scratch with
    cells := scratch.cells.take offset ++ bytes ++ scratch.cells.drop (offset + bytes.length) }

@[simp] theorem level_releaseTo (scratch : Scratch) (level : Nat) :
    (scratch.releaseTo level).level = min level scratch.level := rfl

end Scratch

end Rendezvous
