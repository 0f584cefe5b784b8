import Rendezvous.Wire.Codec

/-!
# Rendezvous.Channel.Reassembly

**Cutting a byte stream into frames.** A `Reassembly` of fixed capacity holds
the bytes that have arrived and not yet been used. A frame can start at the head
when the magic stands there with a length between the shortest frame and the
capacity; otherwise the first byte is garbage, and dropping it counts as one
skipped byte. `cut` drops garbage, cuts off the frame at the head once it
is complete, and decodes it. A frame that does not decode is used up all the same.

The first eight bytes settle whether a frame starts at the head, so no more state
is kept than the bytes themselves.
-/

namespace Rendezvous

/-- Bytes on their way to being frames. -/
structure Reassembly where
  capacity : Nat
  held : Bytes
  /-- Bytes dropped as garbage so far. The number is idealised: a 64-bit count agrees with
  it up to `2 ^ 64` bytes of garbage. What one read adds to it is all that is used; the
  coordinator takes that modulo `2 ^ 64` when it counts it (`Coordinator.countSkipped`). -/
  skipped : Nat
deriving DecidableEq, Repr

/-- Are there too few bytes for a header? -/
def headerMissing (bytes : Bytes) : Bool :=
  (bytes.drop (headerLength - 1)).isEmpty

/-- The length of the frame that starts at the head of the bytes, for frames of at
most `capacity` bytes. -/
def frameStart (capacity : Nat) (bytes : Bytes) : Option Nat :=
  (declaredLength bytes).filter fun n => decide (minFrameLength ≤ n ∧ n ≤ capacity)

/-- A frame start declares a length between the shortest frame and the capacity. -/
theorem frameStart_bounds {capacity n : Nat} {bytes : Bytes}
    (h : frameStart capacity bytes = some n) : minFrameLength ≤ n ∧ n ≤ capacity := by
  have := Option.filter_eq_some_iff.1 h
  simpa using this.2

/-- How many bytes at the head are garbage: they are followed by a frame start or
by too few bytes for a header. -/
def garbage (capacity : Nat) : Bytes → Nat
  | [] => 0
  | byte :: rest =>
    if headerMissing (byte :: rest) then 0
    else if (frameStart capacity (byte :: rest)).isSome then 0
    else garbage capacity rest + 1

namespace Reassembly

/-- A reassembly without bytes. -/
def ofCapacity (capacity : Nat) : Reassembly := ⟨capacity, [], 0⟩

/-- How many bytes are held. -/
def size (r : Reassembly) : Nat := r.held.length

/-- How many more bytes can be held. -/
def room (r : Reassembly) : Nat := r.capacity - r.size

/-- Takes in bytes that there is room for. -/
def append (r : Reassembly) (bytes : Bytes) : Reassembly :=
  { r with held := r.held ++ bytes }

/-- Takes in as many of the bytes as there is room for, answering how many. -/
def fill (r : Reassembly) (bytes : Bytes) : Nat × Reassembly :=
  let taken := bytes.take r.room
  (taken.length, r.append taken)

/-- Drops garbage from the head. -/
def skipGarbage (r : Reassembly) : Reassembly :=
  let dropped := garbage r.capacity r.held
  { r with held := r.held.drop dropped, skipped := r.skipped + dropped }

/-- The length of the frame at the head, once its header is complete. -/
def headLength (r : Reassembly) : Option Nat :=
  if headerMissing r.held then none else frameStart r.capacity r.held

/-- The next complete frame, decoded; none if more bytes are needed. -/
def cut (r : Reassembly) : Option (Except CodecError Message) × Reassembly :=
  let r := r.skipGarbage
  match r.headLength with
  | none => (none, r)
  | some length =>
    if r.size < length then (none, r)
    else (some (Message.decode (r.held.take length)), { r with held := r.held.drop length })

theorem headLength_bounds {r : Reassembly} {n : Nat} (h : r.headLength = some n) :
    minFrameLength ≤ n ∧ n ≤ r.capacity := by
  unfold headLength at h
  split at h
  · exact absurd h (by simp)
  · exact frameStart_bounds h

theorem size_skipGarbage_le (r : Reassembly) : r.skipGarbage.size ≤ r.size := by
  simp [skipGarbage, size]

/-- A frame takes its bytes with it. -/
theorem size_cut_lt {r rest : Reassembly} {frame : Except CodecError Message}
    (h : r.cut = (some frame, rest)) : rest.size < r.size := by
  unfold cut at h
  simp only at h
  split at h
  · simp at h
  · next n hn =>
    split at h
    · simp at h
    · next hle =>
      simp only [Prod.mk.injEq] at h
      obtain ⟨-, rfl⟩ := h
      have hpos := (headLength_bounds hn).1
      have hres := size_skipGarbage_le r
      simp only [minFrameLength, headerLength] at hpos
      simp only [size, List.length_drop] at *
      omega

/-- All frames that are complete, up to the first that does not decode. -/
structure Drain where
  frames : List Message
  failure : Option CodecError
  rest : Reassembly

/-- Cuts off complete frames until there is none, or one does not
decode. -/
def drain (r : Reassembly) : Drain :=
  match _h : r.cut with
  | (none, rest) => ⟨[], none, rest⟩
  | (some (.error e), rest) => ⟨[], some e, rest⟩
  | (some (.ok msg), rest) =>
    let more := rest.drain
    { more with frames := msg :: more.frames }
termination_by r.size
decreasing_by exact size_cut_lt _h

end Reassembly

end Rendezvous
