import Rendezvous.Proofs.Coordinator.Holders
import Mathlib.Data.List.Induction
import Mathlib.Logic.Function.Basic

/-!
# Rendezvous.Proofs.Coordinator.Chronicle

**What an onlooker knows of a roster.** A `Chronicle` is a roster together with what was
done to it, as somebody would keep it who sees the operations and their answers and
nothing of queues, slots and chains: who is attached since when, what was posted to and
taken for whom, who announced what, and who was the first to announce from an address.

`Chronicle.Sound` ties the two together. The chronicle of any list of operations is sound
(`sound_after`), one lemma for each operation:

* a member's list is what was posted to it and not yet taken;
* the members stand in the order in which they were attached;
* an address is bound to the one who holds it.
-/

namespace Rendezvous

/-! ### Operations and their record -/

/-- Something that is done to a roster from outside. -/
inductive Roster.Change where
  | enroll (stream : FramedStream) (addr : SocketAddr) (timer : Timer)
  | post (handle : Handle) (msg : Message)
  | introduce (handle : Handle) (entry : PeerEntry)
  | takeNext (handle : Handle)
  | detach (handle : Handle)

/-- A roster with what an onlooker has seen of the operations on it. What concerns a member
counts from when it was attached. -/
structure Chronicle where
  roster : Roster
  /-- Who is attached, in the order of attaching. -/
  attached : List Handle
  /-- The messages posted for a member, by itself or because of an announcement. -/
  posted : Handle → List Message
  /-- The messages taken for a member. -/
  taken : Handle → List Message
  /-- What a member announced last, if that was not ignored. -/
  announced : Handle → Option PeerEntry
  /-- Who announced from their address when no other attached member held it. -/
  holders : List Handle

namespace Chronicle

open Roster (Change)

/-- Nothing has been done. -/
def empty : Chronicle := ⟨.empty, [], fun _ => [], fun _ => [], fun _ => none, []⟩

/-- Messages have been posted for those who are attached. -/
def postedWith (c : Chronicle) (mail : List (Handle × Message)) (handle : Handle) :
    List Message :=
  if handle ∈ c.attached then
    c.posted handle ++ (mail.filter fun item => item.1 = handle).map Prod.snd
  else c.posted handle

/-- One more thing is done. -/
def record (c : Chronicle) : Change → Chronicle
  | .enroll stream addr timer =>
    let handle := (c.roster.enroll stream addr timer).val.1
    { roster := (c.roster.enroll stream addr timer).val.2
      attached := c.attached ++ [handle]
      posted := Function.update c.posted handle []
      taken := Function.update c.taken handle []
      announced := Function.update c.announced handle none
      holders := c.holders }
  | .post handle msg =>
    { c with
      roster := c.roster.post handle msg
      posted := c.postedWith [(handle, msg)] }
  | .introduce handle entry =>
    let count := (c.roster.introduce handle entry).val.1
    { c with
      roster := (c.roster.introduce handle entry).val.2
      posted := c.postedWith (c.roster.mail handle entry)
      announced := Function.update c.announced handle (count.map fun _ => entry)
      holders := c.roster.holdersAfter c.holders handle }
  | .takeNext handle =>
    let msg := (c.roster.takeNext handle).1
    { c with
      roster := (c.roster.takeNext handle).2
      taken := Function.update c.taken handle (c.taken handle ++ msg.toList) }
  | .detach handle =>
    { roster := (c.roster.detach handle).2
      attached := c.attached.filter fun other => other ≠ handle
      posted := Function.update c.posted handle []
      taken := Function.update c.taken handle []
      announced := Function.update c.announced handle none
      holders := c.holders.filter fun other => other ≠ handle }

/-- The chronicle of a list of operations, beginning with nothing. -/
def after (changes : List Change) : Chronicle := changes.foldl record empty

@[simp] theorem after_concat (changes : List Change) (change : Change) :
    after (changes ++ [change]) = (after changes).record change := by
  simp [after]

/-- Those who are attached and whose last announcement was not ignored. -/
def announcers (c : Chronicle) : List Handle :=
  c.attached.filter fun handle => (c.announced handle).isSome

/-! ### A chronicle tells the truth -/

/-- What the onlooker knows is what the roster holds. -/
structure Sound (c : Chronicle) : Prop where
  wellFormed : c.roster.WellFormed
  owned : c.roster.Owned
  order : c.roster.order = c.attached
  posted : ∀ handle, c.posted handle = c.taken handle ++ c.roster.pending handle
  announced : ∀ handle, c.announced handle = c.roster.entryOf handle
  unviewed : ∀ handle, c.roster.viewOf handle = none → c.roster.entryOf handle = none
  held : c.roster.Held c.holders

namespace Sound

variable {c : Chronicle} {handle : Handle}

theorem empty : Sound Chronicle.empty where
  wellFormed := Roster.wellFormed_empty
  owned := Roster.owned_empty
  order := rfl
  posted := fun _ => rfl
  announced := fun _ => rfl
  unviewed := fun _ _ => rfl
  held := Roster.held_empty

theorem mem_attached (h : Sound c) :
    handle ∈ c.attached ↔ ∃ member, c.roster.get? handle = some member := by
  rw [← h.order]
  exact h.wellFormed.members.mem_keys

theorem get?_eq_none (h : Sound c) (habsent : handle ∉ c.attached) :
    c.roster.get? handle = none := by
  cases hget : c.roster.get? handle with
  | none => rfl
  | some member => exact absurd (h.mem_attached.2 ⟨member, hget⟩) habsent

theorem enroll (h : Sound c) (stream : FramedStream) (addr : SocketAddr) (timer : Timer) :
    Sound (c.record (.enroll stream addr timer)) where
  wellFormed := h.wellFormed.enroll stream addr timer
  owned := h.owned.enroll h.wellFormed stream addr timer
  order := by
    rw [record, ← h.order]
    exact Roster.order_enroll h.wellFormed stream addr timer
  posted := by
    intro other
    simp only [record]
    rw [Roster.pending_enroll h.wellFormed]
    by_cases hsame : other = (c.roster.enroll stream addr timer).val.1
    · rw [hsame, Function.update_self, Function.update_self,
        Roster.pending_of_absent (Roster.get?_fst_enroll h.wellFormed stream addr timer)]
      rfl
    · rw [Function.update_of_ne hsame, Function.update_of_ne hsame]
      exact h.posted other
  announced := by
    intro other
    simp only [record]
    rw [Roster.entryOf_eq_card, Roster.card_enroll h.wellFormed]
    by_cases hsame : other = (c.roster.enroll stream addr timer).val.1
    · rw [hsame, Function.update_self, if_pos rfl]
      rfl
    · rw [Function.update_of_ne hsame, if_neg hsame, ← Roster.entryOf_eq_card]
      exact h.announced other
  unviewed := by
    intro other
    simp only [record]
    rw [Roster.viewOf_eq_card, Roster.entryOf_eq_card, Roster.card_enroll h.wellFormed]
    split
    next => exact fun _ => rfl
    next =>
      rw [← Roster.viewOf_eq_card, ← Roster.entryOf_eq_card]
      exact h.unviewed other
  held := h.held.enroll h.wellFormed stream addr timer

/-- Whoever is not attached has nothing, whatever is posted. -/
theorem posted_postedWith (h : Sound c) {roster : Roster} (mail : List (Handle × Message))
    (hget : ∀ handle, c.roster.get? handle = none → roster.get? handle = none)
    (hpending : ∀ handle, handle ∈ c.attached →
      roster.pending handle =
        c.roster.pending handle ++ (mail.filter fun item => item.1 = handle).map Prod.snd)
    (handle : Handle) : c.postedWith mail handle = c.taken handle ++ roster.pending handle := by
  rw [postedWith]
  split
  next hmem => rw [hpending handle hmem, ← List.append_assoc, ← h.posted]
  next habsent =>
    have hnone := h.get?_eq_none habsent
    rw [h.posted, Roster.pending_of_absent hnone, Roster.pending_of_absent (hget handle hnone)]

theorem post (h : Sound c) (handle : Handle) (msg : Message) :
    Sound (c.record (.post handle msg)) where
  wellFormed := h.wellFormed.post handle msg
  owned := h.owned.post h.wellFormed handle msg
  order := (Roster.order_post h.wellFormed handle msg).trans h.order
  posted := by
    refine h.posted_postedWith [(handle, msg)] ?_ ?_
    · intro other hnone
      simp only [record, Roster.get?_post, hnone, Option.map_none, ite_self]
    · intro other hmem
      obtain ⟨member, hother⟩ := h.mem_attached.1 hmem
      cases hget : c.roster.get? handle with
      | none =>
          have hne : handle ≠ other := by
            rintro rfl
            simp [hother] at hget
          simp [record, Roster.post_of_absent hget, hne]
      | some target =>
          simp only [record, Roster.pending_post h.wellFormed hget]
          by_cases hsame : other = handle
          · simp [hsame]
          · have hne : handle ≠ other := fun heq => hsame heq.symm
            simp [hsame, hne]
  announced := by
    intro other
    simp only [record]
    rw [h.announced, Roster.entryOf_congr (c.roster.card_post handle msg other)]
  unviewed := by
    intro other
    have hcard := c.roster.card_post handle msg other
    simp only [record]
    rw [Roster.viewOf_congr hcard, Roster.entryOf_congr hcard]
    exact h.unviewed other
  held := h.held.post handle msg

theorem introduce (h : Sound c) (handle : Handle) (entry : PeerEntry) :
    Sound (c.record (.introduce handle entry)) where
  wellFormed := h.wellFormed.introduce handle entry
  owned := h.owned.introduce h.wellFormed handle entry
  order := (Roster.order_introduce h.wellFormed handle entry).trans h.order
  posted := by
    refine h.posted_postedWith (c.roster.mail handle entry) ?_ ?_
    · intro other hnone
      obtain ⟨entries, slots, hafter⟩ := Roster.get?_introduce c.roster handle entry other
      exact hafter.trans (by rw [hnone]; rfl)
    · intro other _
      exact Roster.pending_introduce h.wellFormed handle entry other
  announced := by
    intro other
    simp only [record]
    cases hview : c.roster.viewOf handle with
    | none =>
        rw [Roster.introduce_of_viewOf_none hview]
        by_cases hsame : other = handle
        · -- Who is ignored now was ignored before.
          rw [hsame, Function.update_self, h.unviewed handle hview]
          rfl
        · rw [Function.update_of_ne hsame]
          exact h.announced other
    | some control =>
        rw [Roster.introduce_of_viewOf hview]
        simp only [Option.map_some]
        rw [Roster.entryOf_congr (Roster.card_postAll _ _ other), Roster.entryOf_register hview]
        by_cases hsame : other = handle
        · rw [hsame, Function.update_self, if_pos rfl]
        · rw [Function.update_of_ne hsame, if_neg hsame]
          exact h.announced other
  unviewed := by
    intro other
    simp only [record]
    cases hview : c.roster.viewOf handle with
    | none =>
        rw [Roster.introduce_of_viewOf_none hview]
        exact h.unviewed other
    | some control =>
        rw [Roster.introduce_of_viewOf hview]
        simp only
        rw [Roster.viewOf_congr (Roster.card_postAll _ _ other),
          Roster.entryOf_congr (Roster.card_postAll _ _ other), Roster.viewOf_register,
          Roster.entryOf_register hview]
        intro hnone
        rw [if_neg]
        · exact h.unviewed other hnone
        · rintro rfl
          rw [hview] at hnone
          cases hnone
  held := h.held.introduce handle entry

theorem takeNext (h : Sound c) (handle : Handle) : Sound (c.record (.takeNext handle)) where
  wellFormed := h.wellFormed.takeNext handle
  owned := h.owned.takeNext h.wellFormed handle
  order := (Roster.order_takeNext h.wellFormed handle).trans h.order
  posted := by
    intro other
    simp only [record]
    rw [Roster.pending_takeNext h.wellFormed, h.posted, Roster.fst_takeNext h.wellFormed]
    by_cases hsame : other = handle
    · rw [hsame, Function.update_self, if_pos rfl, List.append_assoc]
      cases c.roster.pending handle <;> rfl
    · rw [Function.update_of_ne hsame, if_neg hsame]
  announced := by
    intro other
    simp only [record]
    rw [h.announced, Roster.entryOf_congr (c.roster.card_takeNext handle other)]
  unviewed := by
    intro other
    have hcard := c.roster.card_takeNext handle other
    simp only [record]
    rw [Roster.viewOf_congr hcard, Roster.entryOf_congr hcard]
    exact h.unviewed other
  held := h.held.takeNext handle

theorem detach (h : Sound c) (handle : Handle) : Sound (c.record (.detach handle)) where
  wellFormed := h.wellFormed.detach handle
  owned := h.owned.detach h.wellFormed handle
  order := by
    rw [record, ← h.order]
    exact Roster.order_detach h.wellFormed handle
  posted := by
    intro other
    simp only [record]
    rw [Roster.pending_detach h.wellFormed]
    by_cases hsame : other = handle
    · rw [hsame, Function.update_self, Function.update_self, if_pos rfl]
      rfl
    · rw [Function.update_of_ne hsame, Function.update_of_ne hsame, if_neg hsame]
      exact h.posted other
  announced := by
    intro other
    simp only [record]
    rw [Roster.entryOf_eq_card, Roster.card_detach h.wellFormed]
    by_cases hsame : other = handle
    · rw [hsame, Function.update_self, if_pos rfl]
      rfl
    · rw [Function.update_of_ne hsame, if_neg hsame, ← Roster.entryOf_eq_card]
      exact h.announced other
  unviewed := by
    intro other
    simp only [record]
    rw [Roster.viewOf_eq_card, Roster.entryOf_eq_card, Roster.card_detach h.wellFormed]
    split
    next => exact fun _ => rfl
    next =>
      rw [← Roster.viewOf_eq_card, ← Roster.entryOf_eq_card]
      exact h.unviewed other
  held := h.held.detach h.wellFormed handle

theorem record (h : Sound c) (change : Change) : Sound (c.record change) := by
  cases change with
  | enroll stream addr timer => exact h.enroll stream addr timer
  | post handle msg => exact h.post handle msg
  | introduce handle entry => exact h.introduce handle entry
  | takeNext handle => exact h.takeNext handle
  | detach handle => exact h.detach handle

end Sound

/-- The chronicle of any list of operations is sound. -/
theorem sound_after (changes : List Change) : Sound (after changes) := by
  induction changes using List.reverseRecOn with
  | nil => exact .empty
  | append_singleton changes change ih =>
      rw [after_concat]
      exact ih.record change

end Chronicle
end Rendezvous
