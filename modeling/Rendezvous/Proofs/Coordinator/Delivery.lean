import Rendezvous.Proofs.Coordinator.Chronicle

/-!
# Rendezvous.Proofs.Coordinator.Delivery

**Every message waits in one place and leaves in order.** All queues share one slab of
messages, whose slots are reused as soon as they are free. `Accounted` says that this goes
unnoticed: after any operations the slots in use are those in the queues, each of them
once, and the slab is no larger than the fullest moment required; a member is given
exactly what was posted to it, oldest first, and who leaves takes nobody else's messages
along.
-/

namespace Rendezvous
namespace Chronicle

open Roster (Change)

variable {c : Chronicle}

/-- How many messages wait, for all members together. -/
def backlog (c : Chronicle) : Nat :=
  (c.attached.map fun handle => (c.roster.queueOf handle).length).sum

/-- Where the messages are after some operations. -/
structure Accounted (changes : List Change) : Prop where
  /-- No slot stands in two places of the queues of those who are attached. -/
  once : ((after changes).attached.flatMap (after changes).roster.queueOf).Nodup
  /-- The slots in the queues are the live ones. -/
  live : ∀ slot, slot ∈ (after changes).attached.flatMap (after changes).roster.queueOf ↔
    ∃ msg, (after changes).roster.messages.get? slot = some msg
  size : (after changes).roster.messages.size = (after changes).backlog
  /-- There are as many slots as messages ever waited at the same time. -/
  capacity : IsGreatest {n | ∃ earlier, earlier <+: changes ∧ (after earlier).backlog = n}
    (after changes).roster.messages.capacity
  /-- What was taken for a member is the beginning of what was posted to it. -/
  taken : ∀ handle, (after changes).taken handle <+: (after changes).posted handle
  /-- What is taken next is the oldest message not yet taken. -/
  next : ∀ handle, ((after changes).roster.takeNext handle).1 =
    ((after changes).posted handle)[((after changes).taken handle).length]?
  /-- Nothing is taken only if nobody is there or nothing waits. -/
  nothing : ∀ handle, ((after changes).roster.takeNext handle).1 = none →
    handle ∉ (after changes).attached ∨ (after changes).roster.queueOf handle = []
  /-- Who leaves frees the slots of their queue, and no others. -/
  freed : ∀ handle slot, ((after changes).roster.detach handle).2.messages.get? slot =
    if slot ∈ (after changes).roster.queueOf handle then none
    else (after changes).roster.messages.get? slot
  /-- Who stays keeps their queue, with the same messages. -/
  kept : ∀ handle other, other ≠ handle →
    ((after changes).roster.detach handle).2.get? other = (after changes).roster.get? other ∧
      ((after changes).roster.detach handle).2.pending other =
        (after changes).roster.pending other

namespace Sound

theorem size_messages (h : Sound c) : c.roster.messages.size = c.backlog := by
  rw [Roster.size_messages h.wellFormed h.owned, h.order, backlog]

/-- The slab grows to what waits after an operation, if it is smaller. -/
theorem capacity_record (h : Sound c) (change : Change) :
    (c.record change).roster.messages.capacity =
      max c.roster.messages.capacity (c.record change).backlog := by
  rw [← (h.record change).size_messages]
  have hfits := (h.record change).wellFormed.messages.size_le_capacity
  cases change with
  | enroll stream addr timer => exact (Nat.max_eq_left hfits).symm
  | post handle msg => exact Roster.capacity_post h.wellFormed handle msg
  | introduce handle entry => exact Roster.capacity_introduce h.wellFormed handle entry
  | takeNext handle =>
      have hsame : (c.record (.takeNext handle)).roster.messages.capacity =
          c.roster.messages.capacity := Roster.capacity_takeNext c.roster handle
      rw [hsame] at hfits ⊢
      exact (Nat.max_eq_left hfits).symm
  | detach handle =>
      have hsame : (c.record (.detach handle)).roster.messages.capacity =
          c.roster.messages.capacity := Roster.capacity_detach c.roster handle
      rw [hsame] at hfits ⊢
      exact (Nat.max_eq_left hfits).symm

theorem next (h : Sound c) (handle : Handle) :
    (c.roster.takeNext handle).1 = (c.posted handle)[(c.taken handle).length]? := by
  rw [Roster.fst_takeNext h.wellFormed, h.posted, List.getElem?_append_right (Nat.le_refl _),
    Nat.sub_self, List.head?_eq_getElem?]

theorem nothing (h : Sound c) {handle : Handle} (hnone : (c.roster.takeNext handle).1 = none) :
    handle ∉ c.attached ∨ c.roster.queueOf handle = [] := by
  rw [Roster.fst_takeNext h.wellFormed, List.head?_eq_none_iff, ← List.length_eq_zero_iff,
    h.wellFormed.length_pending, List.length_eq_zero_iff] at hnone
  exact .inr hnone

end Sound

/-- There are as many slots as messages ever waited at the same time. -/
theorem isGreatest_capacity (changes : List Change) :
    IsGreatest {n | ∃ earlier, earlier <+: changes ∧ (after earlier).backlog = n}
      (after changes).roster.messages.capacity := by
  refine isGreatest_of_raised (fun changes => (after changes).backlog)
    (fun changes => (after changes).roster.messages.capacity) rfl (fun changes change => ?_)
    changes
  simp only [after_concat]
  exact (sound_after changes).capacity_record change

/-- After any operations, every message is accounted for. -/
theorem accounted (changes : List Change) : Accounted changes := by
  have h := sound_after changes
  have hqueued : (after changes).attached.flatMap (after changes).roster.queueOf =
      (after changes).roster.queued := by
    rw [Roster.queued, h.order]
  refine ⟨?_, ?_, h.size_messages, isGreatest_capacity changes, ?_, h.next, fun _ => h.nothing,
    Roster.get?_messages_detach h.wellFormed, ?_⟩
  · rw [hqueued]
    exact Roster.nodup_queued h.wellFormed
  · intro slot
    rw [hqueued, (Roster.perm_queued h.wellFormed h.owned).mem_iff,
      h.wellFormed.messages.mem_keys]
  · intro handle
    rw [h.posted]
    exact List.prefix_append ..
  · intro handle other hne
    rw [Roster.get?_detach h.wellFormed, Roster.pending_detach h.wellFormed, if_neg hne,
      if_neg hne]
    exact ⟨rfl, rfl⟩

end Chronicle
end Rendezvous
