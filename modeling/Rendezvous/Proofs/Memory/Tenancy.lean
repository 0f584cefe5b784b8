import Mathlib.Data.List.Induction
import Mathlib.Data.List.Pairwise
import Rendezvous.Proofs.Wire.Encoders

/-!
# Rendezvous.Proofs.Memory.Tenancy

**Nobody's range of scratch memory is disturbed.** A `Tenancy` is scratch memory together with
the ranges in use, as they who asked for them see it: a range is in use for as long as the
level does not fall below its end, and what stands in it is what was found there and what was
written to this range since.

* `Scratch.Effect` is what can come of a use; a range that is taken is `Granted`, whether or not
  the memory grows for it.
* `Tenancy.Kept` is the invariant: the ranges in use lie one behind the other below the level,
  and hold what their users expect. `Kept.record` is its step and `kept_after` its induction.
* `Tenancy.ranges_eq_layout` says that bytes and growth do not matter for where ranges are
  taken, so who goes back to a level and asks again gets the same ones.
-/

namespace Rendezvous
namespace Scratch

variable {scratch before after : Scratch} {size align : Nat} {span : Span}

/-! ### Bytes and ranges -/

/-- Bytes with some of them written over. -/
def overwrite (cells : Bytes) (offset : Nat) (bytes : Bytes) : Bytes :=
  cells.take offset ++ bytes ++ cells.drop (offset + bytes.length)

/-- Writing behind the first bytes writes into the others. -/
theorem drop_overwrite {cells : Bytes} {start : Nat} (h : start ≤ cells.length) (offset : Nat)
    (bytes : Bytes) :
    (overwrite cells (start + offset) bytes).drop start =
      overwrite (cells.drop start) offset bytes := by
  have hkeep : start - (cells.take (start + offset)).length = 0 := by
    rw [List.length_take]
    omega
  simp only [overwrite, List.append_assoc, List.drop_append, hkeep, List.drop_zero,
    List.drop_take, Nat.add_sub_cancel_left, List.drop_drop, Nat.zero_sub, Nat.add_zero,
    Nat.add_assoc]

/-- Writing before the last bytes writes into the others. -/
theorem take_overwrite {cells bytes : Bytes} {offset count : Nat}
    (h : offset + bytes.length ≤ count) (hcount : count ≤ cells.length) :
    (overwrite cells offset bytes).take count = overwrite (cells.take count) offset bytes := by
  have hbefore : (cells.take offset).length = offset := List.length_take_of_le (by omega)
  have hwritten : (cells.take offset ++ bytes).length = offset + bytes.length := by
    rw [List.length_append, hbefore]
  have hrest : ∀ rest, (cells.take offset ++ bytes ++ rest).take count =
      cells.take offset ++ bytes ++ rest.take (count - (offset + bytes.length)) := by
    intro rest
    rw [List.take_append, hwritten, List.take_of_length_le (hwritten ▸ h)]
  simp only [overwrite]
  rw [hrest, List.take_take, Nat.min_eq_left (by omega), List.drop_take]

/-- A write within a range is a write into what the range holds. -/
theorem bytes_write_within {offset : Nat} {bytes : Bytes}
    (hbytes : span.start + offset + bytes.length ≤ span.stop) (hstop : span.stop ≤ scratch.capacity) :
    (scratch.write (span.start + offset) bytes).bytes span =
      overwrite (scratch.bytes span) offset bytes := by
  unfold capacity at hstop
  show ((overwrite scratch.cells (span.start + offset) bytes).drop span.start).take _ = _
  rw [drop_overwrite (by omega), take_overwrite (by omega) (by rw [List.length_drop]; omega)]
  rfl

/-- Two ranges of the same bytes hold the same. -/
theorem bytes_congr (h : ∀ i, span.start ≤ i → i < span.stop → after.cells[i]? = before.cells[i]?) :
    after.bytes span = before.bytes span := by
  refine List.ext_getElem? fun i => ?_
  simp only [bytes, List.getElem?_take, List.getElem?_drop]
  split
  next hi => exact h _ (Nat.le_add_right ..) (by omega)
  next => rfl

/-! ### Taking a range -/

/-- A range of some size has been taken: at a multiple of `align`, above everything handed out
before, and within the memory, which has not shrunk. Up to it the memory is in use, and no byte
outside of it has changed. -/
structure Granted (before : Scratch) (size align : Nat) (span : Span) (after : Scratch) :
    Prop where
  aligned : align ∣ span.start
  fresh : before.level ≤ span.start
  size : span.stop = span.start + size
  level : after.level = span.stop
  inside : span.stop ≤ after.capacity
  grown : before.capacity ≤ after.capacity
  untouched : ∀ i, i < before.capacity → i < span.start ∨ span.stop ≤ i →
    after.cells[i]? = before.cells[i]?

theorem HandedOut.granted (h : HandedOut before size align span after) :
    Granted before size align span after := by
  obtain ⟨more, hmore⟩ := h.kept
  refine ⟨h.aligned, h.fresh, h.size, h.level, h.inside, h.kept.length_le, ?_⟩
  intro i hi _
  rw [← hmore, List.getElem?_append_left hi]

/-- What is written over a range after it was taken is its own affair. -/
theorem Granted.write {bytes : Bytes} (h : Granted before size align span after)
    (hbytes : bytes.length = size) :
    Granted before size align span (after.write span.start bytes) := by
  have hsize := h.size
  have hinside := h.inside
  have hroom : span.start + bytes.length ≤ after.capacity := by omega
  have hcapacity := length_write hroom
  refine ⟨h.aligned, h.fresh, h.size, h.level, ?_, ?_, ?_⟩
  · rw [hcapacity]
    exact h.inside
  · rw [hcapacity]
    exact h.grown
  · intro i hi hout
    rw [getElem?_write_outside hroom (by omega)]
    exact h.untouched i hi hout

/-! ### Uses -/

/-- Something that is done to scratch memory. Going back to a mark is going back to the level
that was read off when the mark was taken. -/
inductive Use where
  /-- Asks for some bytes at a multiple of `2 ^ k`. -/
  | reserve (size k : Nat)
  /-- Makes the frame of a message. -/
  | encode (msg : Message)
  /-- Writes into a range, at some distance from its start. -/
  | write (span : Span) (offset : Nat) (bytes : Bytes)
  /-- Takes back everything above a level. -/
  | release (level : Nat)

/-- What a use asks for that decides where it and the ones after it take their ranges. -/
inductive Demand where
  | range (size align : Nat)
  | release (level : Nat)

/-- What a use demands. A message that cannot be measured demands nothing, and neither does a
write. -/
def Use.demand : Use → Option Demand
  | reserve size k => some (.range size (2 ^ k))
  | encode msg =>
    msg.encodedLength.toOption.map fun length => .range length Message.frameAlignment
  | write .. => none
  | release level => some (.release level)

/-- The memory after a use. -/
def apply (scratch : Scratch) : Use → Scratch
  | .reserve size k => (scratch.reserve size (2 ^ k)).2
  | .encode msg => (msg.encodeScratch scratch).2
  | .write span offset bytes => scratch.write (span.start + offset) bytes
  | .release level => scratch.releaseTo level

/-- The range that a use takes, if it takes one. -/
def taken (scratch : Scratch) (use : Use) : Option Span :=
  match use.demand with
  | some (.range size align) => some (scratch.reserve size align).1
  | _ => none

end Scratch

/-- Making a frame takes a range for it, and whatever comes of it is written there. -/
theorem Message.snd_encodeScratch_eq {msg : Message} {length : Nat}
    (h : msg.encodedLength = .ok length) (scratch : Scratch) :
    ∃ bytes : Bytes, bytes.length = length ∧
      (msg.encodeScratch scratch).2 =
        (scratch.reserve length frameAlignment).2.write
          (scratch.reserve length frameAlignment).1.start bytes := by
  have hrange : ((scratch.reserve length frameAlignment).2.bytes
      (scratch.reserve length frameAlignment).1).length = length :=
    Scratch.length_bytes (Scratch.le_length_growTo ..)
  refine ⟨(msg.writeFrame ((scratch.reserve length frameAlignment).2.bytes
    (scratch.reserve length frameAlignment).1)).2, ?_, by simp only [encodeScratch, h]⟩
  rw [writeFrame_eq]
  split
  next => exact hrange
  next hwritten =>
    obtain ⟨hroom, -, hencode⟩ := encode_of_writeRefusal hwritten
    rw [hrange] at hroom
    rw [List.length_append, List.length_drop, length_of_encode hencode, hrange]
    omega

namespace Scratch

/-- What comes of a use: it takes a range, fresh and leaving the rest alone, or it is a message
that cannot be measured, a write, or a release. -/
inductive Effect (scratch : Scratch) : Use → Prop where
  | takes {use : Use} {size align : Nat} (demand : use.demand = some (.range size align))
    (granted : Granted scratch size align (scratch.reserve size align).1 (scratch.apply use)) :
    Effect scratch use
  | fails {msg : Message} (demand : (Use.encode msg).demand = none)
    (same : scratch.apply (.encode msg) = scratch) : Effect scratch (.encode msg)
  | writes (span : Span) (offset : Nat) (bytes : Bytes) : Effect scratch (.write span offset bytes)
  | releases (level : Nat) : Effect scratch (.release level)

theorem effect (scratch : Scratch) (use : Use) : Effect scratch use := by
  cases use with
  | reserve size k => exact .takes rfl (handedOut_reserve scratch size k).granted
  | encode msg =>
      cases hlength : msg.encodedLength with
      | error e =>
          refine .fails ?_ ?_
          · rw [Use.demand, hlength]
            rfl
          · simp only [apply, Message.encodeScratch, hlength]
      | ok length =>
          obtain ⟨bytes, hbytes, hafter⟩ := Message.snd_encodeScratch_eq hlength scratch
          have hdemand : (Use.encode msg).demand =
              some (.range length Message.frameAlignment) := by
            rw [Use.demand, hlength]
            rfl
          -- Frames are aligned at a multiple of two to the third.
          have hgranted : Granted scratch length (2 ^ 3) _ _ :=
            (handedOut_reserve scratch length 3).granted
          refine .takes hdemand ?_
          rw [apply, hafter]
          exact hgranted.write hbytes
  | write span offset bytes => exact .writes span offset bytes
  | release level => exact .releases level

/-- A use that takes a range takes it fresh and leaves the rest alone. -/
theorem granted_of_taken {scratch : Scratch} {use : Use} {span : Span}
    (h : scratch.taken use = some span) :
    ∃ size align, use.demand = some (.range size align) ∧
      Granted scratch size align span (scratch.apply use) := by
  cases effect scratch use with
  | takes hdemand hgranted =>
      rw [taken, hdemand] at h
      obtain rfl := Option.some.inj h
      exact ⟨_, _, hdemand, hgranted⟩
  | fails hdemand _ =>
      rw [taken, hdemand] at h
      cases h
  | writes => cases h
  | releases => cases h

/-! ### Tenants -/

/-- A range in use, with the bytes its user expects there. -/
structure Holding where
  span : Span
  contents : Bytes
deriving DecidableEq

/-- Only a write to the range itself changes what its user expects. -/
def Holding.after (holding : Holding) : Use → Holding
  | .write span offset bytes =>
    if span = holding.span then
      { holding with contents := overwrite holding.contents offset bytes }
    else holding
  | _ => holding

theorem Holding.after_eq_self {holding : Holding} {use : Use}
    (h : ∀ offset bytes, use ≠ .write holding.span offset bytes) : holding.after use = holding := by
  cases use with
  | write span offset bytes =>
      have hother : span ≠ holding.span := fun heq => h offset bytes (heq ▸ rfl)
      exact if_neg hother
  | _ => rfl

@[simp] theorem Holding.span_after (holding : Holding) (use : Use) :
    (holding.after use).span = holding.span := by
  unfold Holding.after
  split
  · split <;> rfl
  · rfl

/-- Scratch memory with the ranges in use. -/
structure Tenancy where
  scratch : Scratch
  /-- The ranges in use, in the order of taking them. -/
  held : List Holding

namespace Tenancy

/-- Writes go into a range in use. -/
def allows (t : Tenancy) : Use → Bool
  | .write span offset bytes =>
    t.held.any (fun holding => holding.span = span) &&
      decide (span.start + offset + bytes.length ≤ span.stop)
  | _ => true

/-- One more use. A range is given up when the level falls below its end, and in use from when
it is taken, with what is found there. A write that goes elsewhere than into a range in use is
not made. -/
def record (t : Tenancy) (use : Use) : Tenancy :=
  if t.allows use then
    { scratch := t.scratch.apply use
      held :=
        ((t.held.map fun holding => holding.after use).filter fun holding =>
          holding.span.stop ≤ (t.scratch.apply use).level) ++
        (t.scratch.taken use).toList.map fun span => ⟨span, (t.scratch.apply use).bytes span⟩ }
  else t

/-- Scratch memory in any state, of which nothing is in use yet, and some uses of it. -/
def after (scratch : Scratch) (uses : List Use) : Tenancy := uses.foldl record ⟨scratch, []⟩

@[simp] theorem after_concat (scratch : Scratch) (uses : List Use) (use : Use) :
    after scratch (uses ++ [use]) = (after scratch uses).record use := by
  rw [after, List.foldl_append]
  rfl

/-! ### The invariant -/

/-- A range in use lies below the level and within the memory, and holds what its user
expects. -/
structure Intact (scratch : Scratch) (holding : Holding) : Prop where
  ordered : holding.span.start ≤ holding.span.stop
  below : holding.span.stop ≤ scratch.level
  inside : holding.span.stop ≤ scratch.capacity
  holds : scratch.bytes holding.span = holding.contents

/-- The ranges in use are intact and lie one behind the other. -/
structure Kept (t : Tenancy) : Prop where
  apart : t.held.Pairwise fun a b => a.span.stop ≤ b.span.start
  intact : ∀ holding ∈ t.held, Intact t.scratch holding

variable {t : Tenancy} {use : Use} {holding : Holding}

theorem mem_held_record (h : t.allows use = true) :
    holding ∈ (t.record use).held ↔
      (∃ earlier ∈ t.held, earlier.span.stop ≤ (t.scratch.apply use).level ∧
        holding = earlier.after use) ∨
      ∃ span, t.scratch.taken use = some span ∧
        holding = ⟨span, (t.scratch.apply use).bytes span⟩ := by
  rw [record, if_pos h]
  simp only [List.mem_append, List.mem_filter, List.mem_map, Option.mem_toList, decide_eq_true_iff]
  grind [Holding.span_after]

theorem scratch_record (h : t.allows use = true) :
    (t.record use).scratch = t.scratch.apply use := by
  rw [record, if_pos h]

/-- A write that is made is made within a range in use. -/
theorem exists_of_allows {span : Span} {offset : Nat} {bytes : Bytes}
    (h : t.allows (.write span offset bytes) = true) :
    (∃ holding ∈ t.held, holding.span = span) ∧
      span.start + offset + bytes.length ≤ span.stop := by
  simpa [allows] using h

namespace Kept

/-- Two different ranges in use have no byte in common. -/
theorem disjoint (h : Kept t) {a b : Holding} (ha : a ∈ t.held) (hb : b ∈ t.held) (hne : a ≠ b) :
    a.span.stop ≤ b.span.start ∨ b.span.stop ≤ a.span.start := by
  have : Std.Symm fun a b : Holding =>
      a.span.stop ≤ b.span.start ∨ b.span.stop ≤ a.span.start := ⟨fun _ _ => Or.symm⟩
  have happart : t.held.Pairwise fun a b =>
      a.span.stop ≤ b.span.start ∨ b.span.stop ≤ a.span.start := h.apart.imp Or.inl
  exact happart.forall ha hb hne

theorem capacity_le_apply (h : Kept t) (hallows : t.allows use = true) :
    t.scratch.capacity ≤ (t.scratch.apply use).capacity := by
  cases effect t.scratch use with
  | takes _ hgranted => exact hgranted.grown
  | fails _ hsame => exact Nat.le_of_eq (congrArg capacity hsame).symm
  | writes span offset bytes =>
      obtain ⟨⟨holding, hmem, rfl⟩, hbytes⟩ := exists_of_allows hallows
      have hroom := Nat.le_trans hbytes (h.intact holding hmem).inside
      exact Nat.le_of_eq (length_write hroom).symm
  | releases level => exact Nat.le_refl _

/-- **Whatever is done, a range in use holds what its user expects.** -/
theorem bytes_apply (h : Kept t) (hallows : t.allows use = true) (hmem : holding ∈ t.held) :
    (t.scratch.apply use).bytes holding.span = (holding.after use).contents := by
  have hintact := h.intact holding hmem
  cases effect t.scratch use with
  | takes hdemand hgranted =>
      have hbelow := hintact.below
      have hinside := hintact.inside
      have hfresh := hgranted.fresh
      have hnowrite : ∀ offset bytes, use ≠ .write holding.span offset bytes := by
        rintro offset bytes rfl
        cases hdemand
      rw [Holding.after_eq_self hnowrite, ← hintact.holds]
      exact bytes_congr fun i _ hi => hgranted.untouched i (by omega) (by omega)
  | fails _ hsame =>
      rw [hsame]
      exact hintact.holds
  | writes span offset bytes =>
      obtain ⟨⟨other, hother, rfl⟩, hbytes⟩ := exists_of_allows hallows
      have hroom := (h.intact other hother).inside
      by_cases hsame : other.span = holding.span
      · rw [Holding.after, if_pos hsame, ← hintact.holds, ← hsame]
        exact bytes_write_within hbytes hroom
      · have hne : other ≠ holding := fun heq => hsame (congrArg Holding.span heq)
        rw [Holding.after, if_neg hsame, ← hintact.holds]
        refine bytes_congr fun i hstart hstop => getElem?_write_outside (by omega) ?_
        rcases h.disjoint hother hmem hne with hbehind | hbefore
        · exact .inr (by omega)
        · exact .inl (by omega)
  | releases level => exact hintact.holds

/-- What is in use after one more use was in use before, or has just been taken. -/
theorem intact_record (h : Kept t) (hallows : t.allows use = true)
    (hmem : holding ∈ (t.record use).held) : Intact (t.scratch.apply use) holding := by
  rcases (mem_held_record hallows).1 hmem with ⟨earlier, hearlier, hstop, rfl⟩ | ⟨span, htaken, rfl⟩
  · have hintact := h.intact earlier hearlier
    refine ⟨?_, ?_, ?_, ?_⟩
    · rw [Holding.span_after]
      exact hintact.ordered
    · rw [Holding.span_after]
      exact hstop
    · rw [Holding.span_after]
      exact Nat.le_trans hintact.inside (h.capacity_le_apply hallows)
    · rw [Holding.span_after]
      exact h.bytes_apply hallows hearlier
  · obtain ⟨size, align, -, hgranted⟩ := granted_of_taken htaken
    have hsize := hgranted.size
    exact ⟨by simp only; omega, Nat.le_of_eq hgranted.level.symm, hgranted.inside, rfl⟩

/-- What is taken by one more use lies behind everything that is in use. -/
theorem apart_record (h : Kept t) (hallows : t.allows use = true) :
    (t.record use).held.Pairwise fun a b => a.span.stop ≤ b.span.start := by
  rw [Tenancy.record, if_pos hallows]
  refine List.pairwise_append.2 ⟨?_, ?_, ?_⟩
  · refine List.Pairwise.filter _ (List.pairwise_map.2 ?_)
    simpa only [Holding.span_after] using h.apart
  · cases t.scratch.taken use with
    | none => exact .nil
    | some span => exact List.pairwise_singleton ..
  · intro a ha b hb
    obtain ⟨earlier, hearlier, rfl⟩ := List.mem_map.1 (List.mem_filter.1 ha).1
    obtain ⟨span, htaken, rfl⟩ := List.mem_map.1 hb
    obtain ⟨size, align, -, hgranted⟩ := granted_of_taken (Option.mem_toList.1 htaken)
    rw [Holding.span_after]
    exact Nat.le_trans (h.intact earlier hearlier).below hgranted.fresh

/-- One more use keeps the ranges in use apart and intact. -/
theorem record (h : Kept t) (use : Use) : Kept (t.record use) := by
  by_cases hallows : t.allows use = true
  · refine ⟨h.apart_record hallows, ?_⟩
    rw [scratch_record hallows]
    exact fun holding => h.intact_record hallows
  · rw [Tenancy.record, if_neg hallows]
    exact h

end Kept

theorem kept_after (scratch : Scratch) (uses : List Use) : Kept (after scratch uses) := by
  induction uses using List.reverseRecOn with
  | nil => exact ⟨.nil, fun holding hmem => absurd hmem List.not_mem_nil⟩
  | append_singleton uses use ih =>
      rw [after_concat]
      exact ih.record use

/-- The memory does not shrink. -/
theorem capacity_le_after (scratch : Scratch) (uses more : List Use) :
    (after scratch uses).scratch.capacity ≤ (after scratch (uses ++ more)).scratch.capacity := by
  induction more using List.reverseRecOn with
  | nil => simp
  | append_singleton more use ih =>
      rw [← List.append_assoc, after_concat]
      refine Nat.le_trans ih ?_
      by_cases hallows : (after scratch (uses ++ more)).allows use = true
      · rw [scratch_record hallows]
        exact (kept_after scratch (uses ++ more)).capacity_le_apply hallows
      · have hsame : (after scratch (uses ++ more)).record use = after scratch (uses ++ more) := by
          rw [record, if_neg hallows]
        exact Nat.le_of_eq (congrArg (fun t => t.scratch.capacity) hsame).symm

/-! ### Where ranges are taken -/

/-- The ranges that some uses take, one after another. -/
def ranges (t : Tenancy) : List Use → List Span
  | [] => []
  | use :: uses => (t.scratch.taken use).toList ++ ranges (t.record use) uses

/-- Where ranges are taken from a level on. -/
def layout (level : Nat) : List Demand → List Span
  | [] => []
  | .range size align :: demands =>
    let start := alignUp level align
    ⟨start, start + size⟩ :: layout (start + size) demands
  | .release level' :: demands => layout (min level' level) demands

/-- The level after what one use demands. -/
def levelAfter (level : Nat) : Option Demand → Nat
  | some (.range size align) => alignUp level align + size
  | some (.release level') => min level' level
  | none => level

/-- The level after a use depends on the level and on what is demanded, not on any bytes. -/
theorem level_record (t : Tenancy) (use : Use) :
    (t.record use).scratch.level = levelAfter t.scratch.level use.demand := by
  by_cases hallows : t.allows use = true
  · rw [scratch_record hallows]
    cases effect t.scratch use with
    | takes hdemand hgranted =>
        rw [hgranted.level, hdemand]
        rfl
    | fails hdemand hsame =>
        rw [hsame, hdemand]
        rfl
    | writes span offset bytes => rfl
    | releases level => rfl
  · rw [record, if_neg hallows]
    cases use with
    | write span offset bytes => rfl
    | _ => exact absurd rfl hallows

/-- **Where ranges are taken is a matter of the level and of what is demanded.** -/
theorem ranges_eq_layout (t : Tenancy) (uses : List Use) :
    t.ranges uses = layout t.scratch.level (uses.filterMap Use.demand) := by
  induction uses generalizing t with
  | nil => rfl
  | cons use uses ih =>
      rw [ranges, ih, level_record, taken]
      cases hdemand : use.demand with
      | none =>
          rw [List.filterMap_cons_none hdemand]
          rfl
      | some demand =>
          rw [List.filterMap_cons_some hdemand]
          cases demand <;> rfl

/-! ### After any uses -/

/-- A range stays in use while the level does not fall below its end, and until it is written
to it stays as it is. -/
theorem mem_held_record_of_stays (hmem : holding ∈ t.held)
    (hstays : holding.span.stop ≤ (t.record use).scratch.level)
    (hnowrite : ∀ offset bytes, use ≠ .write holding.span offset bytes) :
    holding ∈ (t.record use).held := by
  by_cases hallows : t.allows use = true
  · rw [scratch_record hallows] at hstays
    refine (mem_held_record hallows).2 (.inl ⟨holding, hmem, hstays, ?_⟩)
    exact (Holding.after_eq_self hnowrite).symm
  · rw [record, if_neg hallows]
    exact hmem

theorem mem_held_after_of_stays {scratch : Scratch} {uses : List Use}
    (hmem : holding ∈ (after scratch uses).held) (more : List Use)
    (hstays : ∀ sofar, sofar <+: more →
      holding.span.stop ≤ (after scratch (uses ++ sofar)).scratch.level)
    (hnowrite : ∀ offset bytes, Use.write holding.span offset bytes ∉ more) :
    holding ∈ (after scratch (uses ++ more)).held := by
  induction more using List.reverseRecOn with
  | nil =>
      rw [List.append_nil]
      exact hmem
  | append_singleton more use ih =>
      have hbefore : holding ∈ (after scratch (uses ++ more)).held := by
        refine ih (fun sofar hsofar => ?_) (fun offset bytes hwrite => ?_)
        · exact hstays sofar (hsofar.trans (List.prefix_append ..))
        · exact hnowrite offset bytes (List.mem_append_left _ hwrite)
      have hlevel := hstays _ List.prefix_rfl
      rw [← List.append_assoc, after_concat] at hlevel ⊢
      refine mem_held_record_of_stays hbefore hlevel fun offset bytes huse => ?_
      exact hnowrite offset bytes (List.mem_append_right _ (List.mem_singleton.2 huse.symm))

/-- What is taken is in use from then on, with what is found there. -/
theorem exists_held_of_demand {size align : Nat} (h : use.demand = some (.range size align)) :
    ∃ holding ∈ (t.record use).held, t.scratch.taken use = some holding.span ∧
      holding.contents = (t.scratch.apply use).bytes holding.span ∧
      Granted t.scratch size align holding.span (t.record use).scratch := by
  have hallows : t.allows use = true := by
    cases use with
    | write => cases h
    | _ => rfl
  have htaken : t.scratch.taken use = some (t.scratch.reserve size align).1 := by
    rw [taken, h]
  obtain ⟨size', align', hdemand, hgranted⟩ := granted_of_taken htaken
  obtain ⟨rfl, rfl⟩ : size = size' ∧ align = align' := by
    simpa using h.symm.trans hdemand
  rw [scratch_record hallows]
  exact ⟨_, (mem_held_record hallows).2 (.inr ⟨_, htaken, rfl⟩), htaken, rfl, hgranted⟩

/-- A frame that is made is found in the range that was taken for it. -/
theorem exists_held_of_encodeScratch {msg : Message} {frame : Bytes}
    (h : (msg.encodeScratch t.scratch).1 = .ok frame) :
    ∃ holding ∈ (t.record (.encode msg)).held,
      t.scratch.taken (.encode msg) = some holding.span ∧ holding.contents = frame := by
  have hframe : msg.encode = .ok frame := (msg.fst_encodeScratch t.scratch).symm.trans h
  have hlength : msg.encodedLength = .ok frame.length := by
    rw [Message.length_of_encode hframe]
    exact Message.encodedLength_of_countable (Message.encode_eq_ok_iff.1 hframe).1
  have hdemand : (Use.encode msg).demand = some (.range frame.length Message.frameAlignment) := by
    rw [Use.demand, hlength]
    rfl
  obtain ⟨holding, hmem, htaken, hcontents, -⟩ := exists_held_of_demand (t := t) hdemand
  refine ⟨holding, hmem, htaken, ?_⟩
  rw [taken, hdemand] at htaken
  rw [hcontents, ← Option.some.inj htaken, apply, Message.snd_encodeScratch hframe]
  exact bytes_write (handedOut_reserve t.scratch frame.length 3).inside

/-- What is true of scratch memory after some uses. -/
structure Undisturbed (scratch : Scratch) (uses : List Use) : Prop where
  kept : Kept (after scratch uses)
  /-- A range that is asked for is taken, and in use from then on. -/
  granted : ∀ use size align, use.demand = some (.range size align) →
    ∃ holding ∈ (after scratch (uses ++ [use])).held,
      (after scratch uses).scratch.taken use = some holding.span ∧
        Granted (after scratch uses).scratch size align holding.span
          (after scratch (uses ++ [use])).scratch
  /-- A frame that is made stands in the range that is taken for it. -/
  made : ∀ msg frame, (msg.encodeScratch (after scratch uses).scratch).1 = .ok frame →
    ∃ holding ∈ (after scratch (uses ++ [.encode msg])).held,
      (after scratch uses).scratch.taken (.encode msg) = some holding.span ∧
        holding.contents = frame
  /-- A range is in use for as long as the level stays at or above its end, and its bytes
  change only when it is written to. -/
  stable : ∀ holding ∈ (after scratch uses).held, ∀ more,
    (∀ sofar, sofar <+: more →
      holding.span.stop ≤ (after scratch (uses ++ sofar)).scratch.level) →
    (∀ offset bytes, .write holding.span offset bytes ∉ more) →
    holding ∈ (after scratch (uses ++ more)).held ∧
      (after scratch (uses ++ more)).scratch.bytes holding.span =
        (after scratch uses).scratch.bytes holding.span
  grows : ∀ more,
    (after scratch uses).scratch.capacity ≤ (after scratch (uses ++ more)).scratch.capacity
  /-- Who goes back to a level and asks for the same again gets the same ranges. -/
  repeated : ∀ since again,
    (after scratch uses).scratch.level ≤ (after scratch (uses ++ since)).scratch.level →
    again.filterMap Use.demand = since.filterMap Use.demand →
    (after scratch (uses ++ since ++ [.release (after scratch uses).scratch.level])).ranges again =
      (after scratch uses).ranges since

/-- **Whatever is done with scratch memory, nobody's range is disturbed.** -/
theorem ranges_undisturbed (scratch : Scratch) (uses : List Use) : Undisturbed scratch uses := by
  have hkept := kept_after scratch uses
  refine ⟨hkept, fun use size align hdemand => ?_, fun msg frame hmade => ?_,
    fun holding hmem more hstays hnowrite => ?_, capacity_le_after scratch uses,
    fun since again hlevel hsame => ?_⟩
  · rw [after_concat]
    obtain ⟨holding, hmem, htaken, -, hgranted⟩ := exists_held_of_demand hdemand
    exact ⟨holding, hmem, htaken, hgranted⟩
  · rw [after_concat]
    exact exists_held_of_encodeScratch hmade
  · have hlater := mem_held_after_of_stays hmem more hstays hnowrite
    refine ⟨hlater, ?_⟩
    rw [((kept_after scratch (uses ++ more)).intact holding hlater).holds,
      (hkept.intact holding hmem).holds]
  · rw [ranges_eq_layout, ranges_eq_layout, hsame, after_concat, level_record]
    exact congrArg (layout · _) (Nat.min_eq_left hlevel)

/-- Behind three bytes the memory grows for a range and a frame. Both are given up and asked
for again: they are where they were, and the three bytes are untouched. -/
theorem ranges_undisturbed_behind_three_bytes :
    let uses := [.reserve 3 0, .write ⟨0, 3⟩ 0 [1, 2, 3]]
    let since := [.reserve 20 3, .encode .keepAlive]
    let t := after (ofCapacity 4) (uses ++ since ++ [.release 3])
    t.held.map Holding.contents = [[1, 2, 3]] ∧ t.scratch.bytes ⟨0, 3⟩ = [1, 2, 3] ∧
      t.ranges since = [⟨8, 28⟩, ⟨32, 41⟩] := by
  intro uses since t
  have hheld : t.held = [⟨⟨0, 3⟩, [1, 2, 3]⟩] := by decide
  have hundisturbed := ranges_undisturbed (ofCapacity 4) (uses ++ since ++ [.release 3])
  refine ⟨by rw [hheld]; rfl, ?_, ?_⟩
  · exact (hundisturbed.kept.intact ⟨⟨0, 3⟩, [1, 2, 3]⟩ (by rw [hheld]; exact .head _)).holds
  · exact ((ranges_undisturbed (ofCapacity 4) uses).repeated since since (by decide) rfl).trans
      (by decide)

end Tenancy
end Scratch
end Rendezvous
