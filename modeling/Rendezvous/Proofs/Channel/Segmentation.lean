import Rendezvous.Channel.Reassembly
import Rendezvous.Proofs.Wire.Words

/-!
# Rendezvous.Proofs.Channel.Segmentation

**The frames of a stream do not depend on how the stream arrives.** `segment`
cuts up a byte string that is there as a whole, going by the letters and numbers
at its head and nothing else. A `Feed` is a reassembly in use: bytes are offered
in any portions, of which it takes what fits, and frames are asked for at any
time.

* `Feed.HasCut` is the invariant that carries the development: whatever bytes
  are still to come, segmenting all bytes is what has been answered so far, followed
  by segmenting the held bytes.
* `segment_garbage` and `segment_frame` are the two ways in which held bytes
  are used up; both leave the future alone, since the first eight bytes decide.
* `Feed.refines_segment` puts them together.
-/

namespace Rendezvous

/-! ### Cutting up a whole byte string -/

/-- A byte string cut up: the frames in it, how many bytes between them were
dropped, and what is left over at the end. -/
structure Segmentation where
  frames : List Bytes
  skipped : Nat
  rest : Bytes
deriving DecidableEq, Repr

/-- A segmentation that comes after some frames and some dropped bytes. -/
def Segmentation.after (s : Segmentation) (frames : List Bytes) (skipped : Nat) : Segmentation :=
  ⟨frames ++ s.frames, skipped + s.skipped, s.rest⟩

/-- What the frames of a segmentation decode to. -/
def Segmentation.emitted (s : Segmentation) : List (Except CodecError Message) :=
  s.frames.map Message.decode

/-- The number that bytes spell in base 256. -/
def spelledNumber (bytes : Bytes) : Nat :=
  bytes.foldl (fun n byte => n * 256 + byte.toNat) 0

/-- The length that stands behind the first four bytes. -/
def announcedLength (bytes : Bytes) : Nat :=
  spelledNumber ((bytes.drop 4).take 4)

/-- Do the first eight bytes announce a frame of at most `capacity` bytes? They are
the letters `TENT` and the length of the frame. -/
def announcesFrame (capacity : Nat) (bytes : Bytes) : Prop :=
  bytes.take 4 = [0x54, 0x45, 0x4e, 0x54] ∧
    9 ≤ announcedLength bytes ∧ announcedLength bytes ≤ capacity

instance (capacity : Nat) (bytes : Bytes) : Decidable (announcesFrame capacity bytes) :=
  inferInstanceAs (Decidable (_ ∧ _ ∧ _))

/-- Cuts up a byte string from its head: a frame that is announced and complete is
cut off, one that is not complete ends the segmentation, and a byte that starts no
frame is dropped. -/
def segment (capacity : Nat) (bytes : Bytes) : Segmentation :=
  if bytes.length < 8 then ⟨[], 0, bytes⟩
  else if announcesFrame capacity bytes then
    let length := announcedLength bytes
    if bytes.length < length then ⟨[], 0, bytes⟩
    else (segment capacity (bytes.drop length)).after [bytes.take length] 0
  else
    (segment capacity (bytes.drop 1)).after [] 1
termination_by bytes.length
decreasing_by
  all_goals simp_all only [announcesFrame, List.length_drop]; omega

namespace Segmentation

@[simp] theorem after_nil_zero (s : Segmentation) : s.after [] 0 = s := by
  simp [after]

@[simp] theorem after_after (s : Segmentation) (fs gs : List Bytes) (m n : Nat) :
    (s.after fs m).after gs n = s.after (gs ++ fs) (n + m) := by
  simp [after, Nat.add_assoc]

end Segmentation

/-! ### Heads -/

/-- Eight bytes are a header. -/
theorem headerMissing_iff (bytes : Bytes) : headerMissing bytes = true ↔ bytes.length < 8 := by
  simp [headerMissing, headerLength]
  omega

/-- The magic word is the letters `TENT`. -/
theorem word32_eq_magic_iff (a b c d : UInt8) :
    word32 a b c d = magic ↔ [a, b, c, d] = [0x54, 0x45, 0x4e, 0x54] := by
  constructor
  · intro h
    have hn : (word32 a b c d).toNat = 0x54454e54 := by rw [h]; rfl
    rw [toNat_word32] at hn
    have ha := a.toNat_lt
    have hb := b.toNat_lt
    have hc := c.toNat_lt
    have hd := d.toNat_lt
    simp only [List.cons.injEq, ← UInt8.toNat_inj, UInt8.reduceToNat, and_true]
    omega
  · intro h
    simp only [List.cons.injEq, and_true] at h
    obtain ⟨rfl, rfl, rfl, rfl⟩ := h
    rfl

/-- The first eight bytes settle whether a frame starts at the head, whatever
follows them. -/
theorem frameStart_eq_some_iff {capacity n : Nat} {bytes : Bytes} (h : 8 ≤ bytes.length)
    (more : Bytes) :
    frameStart capacity bytes = some n ↔
      announcesFrame capacity (bytes ++ more) ∧ announcedLength (bytes ++ more) = n := by
  match bytes, h with
  | a :: b :: c :: d :: e :: f :: g :: i :: rest, _ =>
      have hword : (word32 e f g i).toNat = spelledNumber [e, f, g, i] := by
        simp [toNat_word32, spelledNumber]
      have hlength : announcedLength (a :: b :: c :: d :: e :: f :: g :: i :: rest ++ more) =
          (word32 e f g i).toNat := by
        simp [announcedLength, hword]
      rw [announcesFrame, hlength]
      simp only [frameStart, declaredLength, startsWithMagic, peekWord_cons, beq_iff_eq,
        Option.some.injEq, word32_eq_magic_iff, minFrameLength, headerLength]
      by_cases hl : [a, b, c, d] = [0x54, 0x45, 0x4e, 0x54]
      · have htake : (a :: b :: c :: d :: e :: f :: g :: i :: rest ++ more).take 4 =
            [a, b, c, d] := rfl
        rw [htake, if_pos hl, Option.filter_eq_some_iff]
        constructor
        · rintro ⟨hn, hb⟩
          simp only [List.drop_succ_cons, List.drop_zero, peekWord_cons, Option.map_some,
            Option.some.injEq] at hn
          exact ⟨⟨hl, by rw [hn]; exact of_decide_eq_true hb⟩, hn⟩
        · rintro ⟨⟨-, hb⟩, hn⟩
          rw [hn] at hb
          exact ⟨by simp [hn], decide_eq_true hb⟩
      · simp [hl]

/-! ### Using up held bytes -/

/-- Dropping garbage and segmenting the rest is segmenting all. -/
theorem segment_garbage (capacity : Nat) (bytes more : Bytes) :
    segment capacity (bytes ++ more) =
      (segment capacity (bytes.drop (garbage capacity bytes) ++ more)).after []
        (garbage capacity bytes) := by
  induction bytes with
  | nil => simp [garbage]
  | cons byte rest ih =>
      unfold garbage
      split
      · simp
      · next hlong =>
        rw [headerMissing_iff] at hlong
        split
        · simp
        · next hstart =>
          -- Eight bytes are here, so what comes later does not make a frame start at the first.
          have hno : ¬ announcesFrame capacity (byte :: rest ++ more) := fun h =>
            hstart (Option.isSome_iff_exists.2
              ⟨_, (frameStart_eq_some_iff (by omega) more).2 ⟨h, rfl⟩⟩)
          have hlen : ¬ (byte :: rest ++ more).length < 8 := by
            rw [List.length_append]
            omega
          rw [segment, if_neg hlen, if_neg hno]
          simp only [List.cons_append, List.drop_succ_cons, List.drop_zero, ih,
            Segmentation.after_after, List.append_nil, Nat.add_comm 1]

/-- There is no more garbage than there are bytes. -/
theorem garbage_le (capacity : Nat) (bytes : Bytes) : garbage capacity bytes ≤ bytes.length := by
  induction bytes with
  | nil => simp [garbage]
  | cons byte rest ih =>
      unfold garbage
      split
      · simp
      · split
        · simp
        · simpa using ih

/-- Cutting off a complete frame and segmenting the rest is segmenting all. -/
theorem segment_frame {capacity n : Nat} {bytes : Bytes} (hlong : 8 ≤ bytes.length)
    (hstart : frameStart capacity bytes = some n) (hn : n ≤ bytes.length) (more : Bytes) :
    segment capacity (bytes ++ more) =
      (segment capacity (bytes.drop n ++ more)).after [bytes.take n] 0 := by
  obtain ⟨hyes, hlength⟩ := (frameStart_eq_some_iff hlong more).1 hstart
  have hlen : ¬ (bytes ++ more).length < 8 := by
    rw [List.length_append]
    omega
  have hfit : ¬ (bytes ++ more).length < n := by
    rw [List.length_append]
    omega
  rw [segment, if_neg hlen, if_pos hyes, hlength]
  simp only
  rw [if_neg hfit, List.drop_append_of_le_length hn, List.take_append_of_le_length hn]

/-- Where there is no whole header, nothing is cut. -/
theorem segment_of_headerMissing {bytes : Bytes} (h : headerMissing bytes = true)
    (capacity : Nat) : segment capacity bytes = ⟨[], 0, bytes⟩ := by
  rw [headerMissing_iff] at h
  rw [segment]
  exact if_pos h

/-- Where neither garbage nor a complete frame is at the head, nothing is cut. -/
theorem segment_of_incomplete {capacity n : Nat} {bytes : Bytes} (hlong : 8 ≤ bytes.length)
    (hstart : frameStart capacity bytes = some n) (hn : bytes.length < n) :
    segment capacity bytes = ⟨[], 0, bytes⟩ := by
  obtain ⟨hyes, hlength⟩ := (frameStart_eq_some_iff hlong []).1 hstart
  rw [List.append_nil] at hyes hlength
  rw [segment, if_neg (by omega), if_pos hyes, hlength]
  exact if_pos hn

/-- What it takes for a head to have a length. -/
theorem Reassembly.headLength_eq_some {r : Reassembly} {n : Nat} (h : r.headLength = some n) :
    8 ≤ r.held.length ∧ frameStart r.capacity r.held = some n := by
  unfold headLength at h
  split at h
  · exact absurd h (by simp)
  · next hlong =>
    rw [headerMissing_iff] at hlong
    exact ⟨by omega, h⟩

/-- Garbage ends where a frame starts or a header is not complete. -/
theorem garbage_stops (capacity : Nat) (bytes : Bytes) :
    headerMissing (bytes.drop (garbage capacity bytes)) = true ∨
      (frameStart capacity (bytes.drop (garbage capacity bytes))).isSome := by
  induction bytes with
  | nil => exact Or.inl rfl
  | cons byte rest ih =>
      unfold garbage
      split
      · next h => exact Or.inl h
      · split
        · next h => exact Or.inr h
        · exact ih

/-- Either there is a complete frame behind the garbage, which is cut off, or what
is behind the garbage cannot be cut. -/
theorem Reassembly.cut_cases (r : Reassembly) :
    (∃ n, r.skipGarbage.headLength = some n ∧ n ≤ r.skipGarbage.size ∧
      r.cut = (some (Message.decode (r.skipGarbage.held.take n)),
        { r.skipGarbage with held := r.skipGarbage.held.drop n })) ∨
    (r.cut = (none, r.skipGarbage) ∧
      segment r.capacity r.skipGarbage.held = ⟨[], 0, r.skipGarbage.held⟩) := by
  cases hhead : r.skipGarbage.headLength with
  | none =>
      have hmissing : headerMissing r.skipGarbage.held = true := by
        rcases garbage_stops r.capacity r.held with hmissing | hstart
        · exact hmissing
        · refine Bool.of_not_eq_false ?_
          intro h
          have hnone : frameStart r.skipGarbage.capacity r.skipGarbage.held = none := by
            simpa [headLength, h] using hhead
          exact absurd hnone (Option.isSome_iff_ne_none.1 hstart)
      exact Or.inr ⟨by simp [cut, hhead], segment_of_headerMissing hmissing _⟩
  | some n =>
      -- A header is there; what matters is whether the rest of its frame is, too.
      by_cases hn : r.skipGarbage.size < n
      · obtain ⟨hlong, hstart⟩ := headLength_eq_some hhead
        exact Or.inr ⟨by simp [cut, hhead, hn], segment_of_incomplete hlong hstart hn⟩
      · exact Or.inl ⟨n, rfl, by omega, by simp [cut, hhead, hn]⟩

/-! ### A reassembly in use -/

/-- What is done with a reassembly: bytes are offered, or a frame is asked for. -/
inductive FeedStep where
  | offer (bytes : Bytes)
  | ask

/-- A reassembly in use, with the bytes that it has taken in and the frames that it
has answered. -/
structure Feed where
  reassembly : Reassembly
  taken : Bytes
  answers : List (Except CodecError Message)

namespace Feed

/-- A feed at its beginning. -/
def start (capacity : Nat) : Feed := ⟨.ofCapacity capacity, [], []⟩

/-- Does one thing with the reassembly. -/
def perform (feed : Feed) : FeedStep → Feed
  | .offer bytes =>
    let (count, reassembly) := feed.reassembly.fill bytes
    { feed with reassembly := reassembly, taken := feed.taken ++ bytes.take count }
  | .ask =>
    match feed.reassembly.cut with
    | (none, reassembly) => { feed with reassembly := reassembly }
    | (some answer, reassembly) =>
      { feed with reassembly := reassembly, answers := feed.answers ++ [answer] }

/-- A feed after some steps. -/
def run (capacity : Nat) (steps : List FeedStep) : Feed :=
  steps.foldl perform (start capacity)

/-- A feed has cut the given frames off the bytes that it took in. -/
structure HasCut (capacity : Nat) (feed : Feed) (frames : List Bytes) : Prop where
  capacity_eq : feed.reassembly.capacity = capacity
  answers_eq : feed.answers = frames.map Message.decode
  /-- The held bytes are what remains of the bytes taken in. -/
  remains : ∃ used, feed.taken = used ++ feed.reassembly.held ∧
    used.length = feed.reassembly.skipped + frames.flatten.length
  /-- Whatever comes next, it makes no difference that these frames are gone. -/
  ahead : ∀ more, segment capacity (feed.taken ++ more) =
    (segment capacity (feed.reassembly.held ++ more)).after frames feed.reassembly.skipped

variable {capacity : Nat} {feed : Feed} {frames : List Bytes}

theorem hasCut_start (capacity : Nat) : HasCut capacity (start capacity) [] where
  capacity_eq := rfl
  answers_eq := rfl
  remains := ⟨[], rfl, rfl⟩
  ahead more := by simp [start, Reassembly.ofCapacity]

theorem perform_offer (feed : Feed) (bytes : Bytes) :
    feed.perform (.offer bytes) =
      { feed with
        reassembly := feed.reassembly.append (bytes.take feed.reassembly.room)
        taken := feed.taken ++ bytes.take feed.reassembly.room } := by
  have htake : bytes.take (bytes.take feed.reassembly.room).length =
      bytes.take feed.reassembly.room := by
    rw [List.take_eq_take_iff, List.length_take]
    omega
  simp only [perform, Reassembly.fill, htake]

/-- Taking in bytes turns bytes still to come into held ones. -/
theorem HasCut.offer (h : HasCut capacity feed frames) (bytes : Bytes) :
    HasCut capacity (feed.perform (.offer bytes)) frames := by
  rw [perform_offer]
  refine ⟨h.capacity_eq, h.answers_eq, ?_, ?_⟩
  · obtain ⟨used, htaken, hlength⟩ := h.remains
    exact ⟨used, by simp [Reassembly.append, htaken], hlength⟩
  · intro more
    simpa [Reassembly.append] using h.ahead (bytes.take feed.reassembly.room ++ more)

/-- Dropping garbage keeps what has been cut off. -/
theorem HasCut.skipGarbage (h : HasCut capacity feed frames) :
    HasCut capacity { feed with reassembly := feed.reassembly.skipGarbage } frames where
  capacity_eq := h.capacity_eq
  answers_eq := h.answers_eq
  remains := by
    obtain ⟨used, htaken, hlength⟩ := h.remains
    refine ⟨used ++ feed.reassembly.held.take (garbage capacity feed.reassembly.held), ?_, ?_⟩
    · simp [Reassembly.skipGarbage, h.capacity_eq, htaken]
    · have := garbage_le capacity feed.reassembly.held
      simp only [Reassembly.skipGarbage, h.capacity_eq, List.length_append, List.length_take]
      omega
  ahead more := by
    rw [h.ahead, segment_garbage]
    simp [Reassembly.skipGarbage, h.capacity_eq]

/-- Cutting off the frame at the head adds it to what has been cut off. -/
theorem HasCut.cutFrame (h : HasCut capacity feed frames) {n : Nat}
    (hhead : feed.reassembly.headLength = some n) (hn : n ≤ feed.reassembly.size) :
    HasCut capacity
      { feed with
        reassembly := { feed.reassembly with held := feed.reassembly.held.drop n }
        answers := feed.answers ++ [Message.decode (feed.reassembly.held.take n)] }
      (frames ++ [feed.reassembly.held.take n]) := by
  obtain ⟨hlong, hstart⟩ := Reassembly.headLength_eq_some hhead
  rw [h.capacity_eq] at hstart
  refine ⟨h.capacity_eq, by simp [h.answers_eq], ?_, ?_⟩
  · obtain ⟨used, htaken, hlength⟩ := h.remains
    refine ⟨used ++ feed.reassembly.held.take n, by simp [htaken], ?_⟩
    simp only [Reassembly.size] at hn
    simp [hlength]
    omega
  · intro more
    rw [h.ahead, segment_frame hlong hstart hn]
    simp

/-- Asking for a frame cuts off at most one. -/
theorem HasCut.ask (h : HasCut capacity feed frames) :
    ∃ frames', HasCut capacity (feed.perform .ask) frames' := by
  rcases feed.reassembly.cut_cases with ⟨n, hhead, hn, hcut⟩ | ⟨hcut, -⟩
  · refine ⟨frames ++ [feed.reassembly.skipGarbage.held.take n], ?_⟩
    simpa only [perform, hcut] using h.skipGarbage.cutFrame hhead hn
  · -- No answer, but the garbage is gone.
    refine ⟨frames, ?_⟩
    simpa only [perform, hcut] using h.skipGarbage

/-- What has been cut off is kept, and more is added to it, in any number of steps. -/
theorem HasCut.steps (h : HasCut capacity feed frames) (steps : List FeedStep) :
    ∃ frames', HasCut capacity (steps.foldl perform feed) frames' := by
  induction steps generalizing feed frames with
  | nil => exact ⟨frames, h⟩
  | cons step steps ih =>
      cases step with
      | offer bytes => exact ih (h.offer bytes)
      | ask =>
          obtain ⟨frames', h'⟩ := h.ask
          exact ih h'

/-- The frames cut off so far are the first ones of all that was taken in. -/
theorem HasCut.frames_eq (h : HasCut capacity feed frames) :
    (segment capacity feed.taken).frames =
      frames ++ (segment capacity feed.reassembly.held).frames := by
  have := h.ahead []
  simp only [List.append_nil] at this
  rw [this]
  rfl

/-- Every byte taken in is held, dropped or in a frame. -/
theorem HasCut.length_taken (h : HasCut capacity feed frames) :
    feed.reassembly.held <:+ feed.taken ∧
      feed.taken.length = feed.reassembly.size + feed.reassembly.skipped +
        (((segment capacity feed.taken).frames.take feed.answers.length).map List.length).sum := by
  obtain ⟨used, htaken, hlength⟩ := h.remains
  have htake : (segment capacity feed.taken).frames.take feed.answers.length = frames := by
    rw [h.frames_eq, h.answers_eq, List.length_map, List.take_left]
  refine ⟨⟨used, htaken.symm⟩, ?_⟩
  rw [htake, htaken, List.length_append, hlength, List.length_flatten, Reassembly.size]
  omega

/-- Once no more frame is complete, everything taken in has been segmented. -/
theorem HasCut.segment_eq (h : HasCut capacity feed frames)
    (hnone : feed.reassembly.cut.1 = none) :
    segment capacity feed.taken =
      ⟨frames, feed.reassembly.cut.2.skipped, feed.reassembly.cut.2.held⟩ := by
  rcases feed.reassembly.cut_cases with ⟨n, -, -, hcut⟩ | ⟨hcut, hdone⟩
  · rw [hcut] at hnone
    exact absurd hnone (by simp)
  · have hahead := h.skipGarbage.ahead []
    simp only [List.append_nil] at hahead
    rw [h.capacity_eq] at hdone
    rw [hahead, hcut, hdone]
    simp [Segmentation.after]

/-- A feed without another answer has answered everything, and its reassembly is
what segmenting the whole leaves over. -/
theorem HasCut.drained (h : HasCut capacity feed frames) (hnone : feed.reassembly.cut.1 = none) :
    feed.answers = (segment capacity feed.taken).emitted ∧
      feed.reassembly.cut.2 =
        ⟨capacity, (segment capacity feed.taken).rest, (segment capacity feed.taken).skipped⟩ := by
  have hcapacity : feed.reassembly.cut.2.capacity = capacity := by
    rcases feed.reassembly.cut_cases with ⟨n, -, -, hcut⟩ | ⟨hcut, -⟩ <;>
      · rw [hcut]
        exact h.capacity_eq
  rw [h.segment_eq hnone, ← hcapacity]
  exact ⟨h.answers_eq, rfl⟩

/-- **A reassembly refines the segmentation of everything it takes in.** However
the bytes are offered and whenever frames are asked for, the answers are the first
of what the whole decodes to, and the held bytes are what the answered frames and
the dropped bytes leave over. Once there is no more answer, the answers are all
there are, and the dropped and the held bytes are those of the whole; so another
feed that took in the same bytes in other portions comes to the same. -/
theorem refines_segment (capacity : Nat) (steps : List FeedStep) :
    let feed := run capacity steps
    let whole := segment capacity feed.taken
    feed.answers <+: whole.emitted ∧
    (feed.reassembly.held <:+ feed.taken ∧
      feed.taken.length = feed.reassembly.size + feed.reassembly.skipped +
        ((whole.frames.take feed.answers.length).map List.length).sum) ∧
    (∀ rest, feed.reassembly.cut = (none, rest) →
      feed.answers = whole.emitted ∧ rest.skipped = whole.skipped ∧
        rest.held = whole.rest ∧ rest.size = whole.rest.length) ∧
    (∀ others, (run capacity others).taken = feed.taken →
      feed.reassembly.cut.1 = none → (run capacity others).reassembly.cut.1 = none →
      (run capacity others).answers = feed.answers ∧
        (run capacity others).reassembly.cut.2 = feed.reassembly.cut.2) := by
  intro feed whole
  obtain ⟨frames, h⟩ : ∃ frames, HasCut capacity feed frames :=
    (hasCut_start capacity).steps steps
  refine ⟨?_, h.length_taken, ?_, ?_⟩
  · rw [h.answers_eq, Segmentation.emitted, h.frames_eq, List.map_append]
    exact List.prefix_append ..
  · intro rest hcut
    obtain ⟨hanswers, hrest⟩ := h.drained (by rw [hcut])
    rw [hcut] at hrest
    simp only at hrest
    exact ⟨hanswers, by rw [hrest], by rw [hrest], by rw [hrest]; rfl⟩
  · intro others htaken hnone hnone'
    obtain ⟨frames', h'⟩ := (hasCut_start capacity).steps others
    obtain ⟨hanswers, hrest⟩ := h.drained hnone
    obtain ⟨hanswers', hrest'⟩ := h'.drained hnone'
    have hsame : (others.foldl perform (start capacity)).taken = feed.taken := htaken
    rw [hsame] at hanswers' hrest'
    exact ⟨hanswers'.trans hanswers.symm, hrest'.trans hrest.symm⟩

end Feed

end Rendezvous
