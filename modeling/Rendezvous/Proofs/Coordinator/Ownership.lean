import Rendezvous.Proofs.Coordinator.Queues
import Rendezvous.Proofs.Memory.SlabCapacity
import Mathlib.Algebra.GroupWithZero.Nat
import Mathlib.Data.List.Nodup

/-!
# Rendezvous.Proofs.Coordinator.Ownership

**No message outlives its place in a queue.** A roster is `Owned` when every live slot of
its message slab is in somebody's queue. With well-formedness, which says that queues
share nothing and hold live slots only, the queues put together then list the live slots,
each of them once (`perm_queued`), so the slab is as large as the queues are long
(`size_messages`). It has as many slots as were ever live together
(`capacity_postAll`, `capacity_takeNext`, `capacity_detach`).
-/

namespace Rendezvous
namespace Roster

variable {roster : Roster} {handle other : Handle} {member : Member} {slot : Handle}

/-- The slots queued for the member that a handle names. -/
def queueOf (roster : Roster) (handle : Handle) : List Handle :=
  match roster.get? handle with
  | some member => member.queue
  | none => []

theorem queueOf_of_get? (hget : roster.get? handle = some member) :
    roster.queueOf handle = member.queue := by
  simp [queueOf, hget]

theorem queueOf_of_absent (hget : roster.get? handle = none) : roster.queueOf handle = [] := by
  simp [queueOf, hget]

theorem mem_queueOf :
    slot ∈ roster.queueOf handle ↔
      ∃ member, roster.get? handle = some member ∧ slot ∈ member.queue := by
  cases hget : roster.get? handle <;> simp [queueOf, hget]

/-- What is queued can be read. -/
theorem WellFormed.length_pending (h : roster.WellFormed) (handle : Handle) :
    (roster.pending handle).length = (roster.queueOf handle).length := by
  cases hget : roster.get? handle with
  | none => rw [pending_of_absent hget, queueOf_of_absent hget, List.length_nil, List.length_nil]
  | some member =>
      rw [pending_of_get? hget, queueOf_of_get? hget, messagesFor, List.length_filterMap_eq_countP,
        List.countP_eq_length]
      intro slot hslot
      obtain ⟨msg, hmsg⟩ := h.live hget hslot
      simp [hmsg]

/-! ### Queues after an operation -/

theorem queueOf_enroll (h : roster.WellFormed) (stream : FramedStream) (addr : SocketAddr)
    (timer : Timer) (other : Handle) :
    (roster.enroll stream addr timer).val.2.queueOf other = roster.queueOf other := by
  unfold queueOf
  rw [get?_enroll h]
  by_cases hsame : other = (roster.enroll stream addr timer).val.1
  · rw [if_pos hsame, hsame, get?_fst_enroll h]
    rfl
  · rw [if_neg hsame]

theorem queueOf_post (hget : roster.get? handle = some member) (msg : Message) (other : Handle) :
    (roster.post handle msg).queueOf other =
      roster.queueOf other ++ if other = handle then [(roster.messages.insert msg).1] else [] := by
  unfold queueOf
  rw [get?_post]
  by_cases hsame : other = handle
  · simp [hsame, hget]
  · simp [hsame]

theorem queueOf_register (roster : Roster) (self : Handle) (control : SocketV4)
    (entry : PeerEntry) (other : Handle) :
    (roster.register self control entry).queueOf other = roster.queueOf other := by
  unfold queueOf
  rw [get?_register]
  by_cases hsame : other = self
  · rw [if_pos hsame]
    cases roster.get? other <;> rfl
  · rw [if_neg hsame]

theorem queueOf_takeNext (roster : Roster) (handle other : Handle) :
    (roster.takeNext handle).2.queueOf other =
      if other = handle then (roster.queueOf other).tail else roster.queueOf other := by
  unfold queueOf
  rw [get?_takeNext]
  by_cases hsame : other = handle
  · rw [if_pos hsame, if_pos hsame]
    cases roster.get? other <;> rfl
  · rw [if_neg hsame, if_neg hsame]

theorem queueOf_detach (h : roster.WellFormed) (handle other : Handle) :
    (roster.detach handle).2.queueOf other =
      if other = handle then [] else roster.queueOf other := by
  unfold queueOf
  rw [get?_detach h]
  by_cases hsame : other = handle
  · rw [if_pos hsame, if_pos hsame]
  · rw [if_neg hsame, if_neg hsame]

/-- Who leaves frees the slots of their queue, and no others. -/
theorem get?_messages_detach (h : roster.WellFormed) (handle slot : Handle) :
    (roster.detach handle).2.messages.get? slot =
      if slot ∈ roster.queueOf handle then none else roster.messages.get? slot := by
  cases hget : roster.get? handle with
  | none => simp [detach_of_absent hget, queueOf_of_absent hget]
  | some member =>
      rw [(detach_of_get? hget).2.2, get?_release h.messages, queueOf_of_get? hget]

/-! ### Owned messages -/

/-- Every message is in somebody's queue. -/
def Owned (roster : Roster) : Prop :=
  ∀ slot msg, roster.messages.get? slot = some msg → ∃ handle, slot ∈ roster.queueOf handle

theorem owned_empty : empty.Owned := by
  intro slot msg hmsg
  cases hmsg

namespace Owned

theorem enroll (ho : roster.Owned) (h : roster.WellFormed) (stream : FramedStream)
    (addr : SocketAddr) (timer : Timer) : (roster.enroll stream addr timer).val.2.Owned := by
  intro slot msg hmsg
  obtain ⟨owner, howner⟩ := ho _ _ hmsg
  exact ⟨owner, (queueOf_enroll h stream addr timer owner).symm ▸ howner⟩

theorem post (ho : roster.Owned) (h : roster.WellFormed) (handle : Handle) (msg : Message) :
    (roster.post handle msg).Owned := by
  cases hget : roster.get? handle with
  | none => rwa [post_of_absent hget]
  | some member =>
      intro slot found hfound
      rw [messages_post hget, h.messages.get?_insert] at hfound
      split at hfound
      next hnew => exact ⟨handle, by simp [queueOf_post hget, hnew]⟩
      next =>
        obtain ⟨owner, howner⟩ := ho _ _ hfound
        exact ⟨owner, by simp [queueOf_post hget, howner]⟩

theorem postAll (ho : roster.Owned) (h : roster.WellFormed) (mail : List (Handle × Message)) :
    (roster.postAll mail).Owned := by
  induction mail generalizing roster with
  | nil => exact ho
  | cons item mail ih => exact ih (ho.post h item.1 item.2) (h.post item.1 item.2)

theorem register (ho : roster.Owned) (self : Handle) (control : SocketV4) (entry : PeerEntry) :
    (roster.register self control entry).Owned := by
  intro slot msg hmsg
  obtain ⟨owner, howner⟩ := ho _ _ hmsg
  exact ⟨owner, (queueOf_register roster self control entry owner).symm ▸ howner⟩

theorem introduce (ho : roster.Owned) (h : roster.WellFormed) (handle : Handle)
    (entry : PeerEntry) : (roster.introduce handle entry).val.2.Owned := by
  cases hview : roster.viewOf handle with
  | none => rwa [introduce_of_viewOf_none hview]
  | some control =>
      rw [introduce_of_viewOf hview]
      exact Owned.postAll (ho.register handle control entry) (h.register handle control entry) _

theorem takeNext (ho : roster.Owned) (h : roster.WellFormed) (handle : Handle) :
    (roster.takeNext handle).2.Owned := by
  intro slot msg hmsg
  have hqueue := queueOf_takeNext roster handle
  rcases takeNext_cases roster handle with ⟨-, htake⟩ | ⟨member, taken, rest, hget, hrest, htake⟩
  · rw [htake] at hmsg ⊢
    exact ho _ _ hmsg
  · rw [htake] at hmsg
    rw [h.messages.get?_remove] at hmsg
    split at hmsg
    next => cases hmsg
    next hne =>
      obtain ⟨owner, howner⟩ := ho _ _ hmsg
      refine ⟨owner, ?_⟩
      rw [hqueue]
      split
      next hsame =>
        rw [hsame, queueOf_of_get? hget, hrest] at howner ⊢
        exact (List.mem_cons.1 howner).resolve_left hne
      next => exact howner

theorem detach (ho : roster.Owned) (h : roster.WellFormed) (handle : Handle) :
    (roster.detach handle).2.Owned := by
  intro slot msg hmsg
  rw [get?_messages_detach h] at hmsg
  split at hmsg
  next => cases hmsg
  next hfree =>
    obtain ⟨owner, howner⟩ := ho _ _ hmsg
    refine ⟨owner, ?_⟩
    rw [queueOf_detach h, if_neg]
    · exact howner
    · rintro rfl
      exact hfree howner

end Owned

/-! ### All queues together -/

/-- The slots in all queues, those of the oldest member first. -/
def queued (roster : Roster) : List Handle := roster.order.flatMap roster.queueOf

theorem mem_queued (h : roster.WellFormed) :
    slot ∈ roster.queued ↔ ∃ handle, slot ∈ roster.queueOf handle := by
  rw [queued, List.mem_flatMap]
  constructor
  · rintro ⟨handle, -, hslot⟩
    exact ⟨handle, hslot⟩
  · rintro ⟨handle, hslot⟩
    obtain ⟨member, hget, -⟩ := mem_queueOf.1 hslot
    exact ⟨handle, h.members.mem_keys.2 ⟨member, hget⟩, hslot⟩

theorem nodup_queued (h : roster.WellFormed) : roster.queued.Nodup := by
  refine List.nodup_flatMap.2 ⟨fun handle _ => ?_, h.members.nodup_keys.imp fun hne => ?_⟩
  · cases hget : roster.get? handle with
    | none => simp [queueOf_of_absent hget]
    | some member =>
        rw [queueOf_of_get? hget]
        exact h.nodup hget
  · intro slot hslot hslot'
    obtain ⟨member, hget, hmem⟩ := mem_queueOf.1 hslot
    obtain ⟨member', hget', hmem'⟩ := mem_queueOf.1 hslot'
    exact hne (h.apart hget hget' hmem hmem')

/-- The live slots are those in the queues, each of them once. -/
theorem perm_queued (h : roster.WellFormed) (ho : roster.Owned) :
    roster.queued.Perm roster.messages.keys := by
  refine (List.perm_ext_iff_of_nodup (nodup_queued h) h.messages.nodup_keys).2 fun slot => ?_
  rw [mem_queued h, h.messages.mem_keys]
  constructor
  · rintro ⟨handle, hslot⟩
    obtain ⟨member, hget, hmem⟩ := mem_queueOf.1 hslot
    exact h.live hget hmem
  · rintro ⟨msg, hmsg⟩
    exact ho _ _ hmsg

theorem size_messages (h : roster.WellFormed) (ho : roster.Owned) :
    roster.messages.size = (roster.order.map fun handle => (roster.queueOf handle).length).sum := by
  rw [← h.messages.length_keys, ← (perm_queued h ho).length_eq, queued, List.length_flatMap]

/-! ### Slots in use -/

theorem capacity_post (h : roster.WellFormed) (handle : Handle) (msg : Message) :
    (roster.post handle msg).messages.capacity =
      max roster.messages.capacity (roster.post handle msg).messages.size := by
  cases hget : roster.get? handle with
  | none =>
      rw [post_of_absent hget]
      exact (Nat.max_eq_left h.messages.size_le_capacity).symm
  | some member =>
      rw [messages_post hget]
      exact h.messages.capacity_insert msg

theorem size_le_size_postAll (roster : Roster) (mail : List (Handle × Message)) :
    roster.messages.size ≤ (roster.postAll mail).messages.size := by
  induction mail generalizing roster with
  | nil => exact Nat.le_refl _
  | cons item mail ih =>
      refine Nat.le_trans ?_ (ih (roster.post item.1 item.2))
      cases hget : roster.get? item.1 with
      | none => exact Nat.le_of_eq (by rw [post_of_absent hget])
      | some member => simp [messages_post hget]

/-- While messages are only added, the most slots are live at the end. -/
theorem capacity_postAll (h : roster.WellFormed) (mail : List (Handle × Message)) :
    (roster.postAll mail).messages.capacity =
      max roster.messages.capacity (roster.postAll mail).messages.size := by
  induction mail generalizing roster with
  | nil => exact (Nat.max_eq_left h.messages.size_le_capacity).symm
  | cons item mail ih =>
      have hgrow := size_le_size_postAll (roster.post item.1 item.2) mail
      have hstep : roster.postAll (item :: mail) = (roster.post item.1 item.2).postAll mail := rfl
      rw [hstep, ih (h.post item.1 item.2), capacity_post h, Nat.max_assoc,
        Nat.max_eq_right hgrow]

theorem capacity_introduce (h : roster.WellFormed) (handle : Handle) (entry : PeerEntry) :
    (roster.introduce handle entry).val.2.messages.capacity =
      max roster.messages.capacity (roster.introduce handle entry).val.2.messages.size := by
  cases hview : roster.viewOf handle with
  | none =>
      rw [introduce_of_viewOf_none hview]
      exact (Nat.max_eq_left h.messages.size_le_capacity).symm
  | some control =>
      rw [introduce_of_viewOf hview]
      exact capacity_postAll (h.register handle control entry) _

/-- A slot that becomes free stays in the slab. -/
theorem capacity_takeNext (roster : Roster) (handle : Handle) :
    (roster.takeNext handle).2.messages.capacity = roster.messages.capacity := by
  rcases takeNext_cases roster handle with ⟨-, htake⟩ | ⟨member, slot, rest, -, -, htake⟩
  · rw [htake]
  · simp [htake]

theorem capacity_release (messages : Slab Message) (queue : List Handle) :
    (queue.foldl (fun messages slot => (messages.remove slot).2) messages).capacity =
      messages.capacity := by
  induction queue generalizing messages with
  | nil => rfl
  | cons slot queue ih => rw [List.foldl_cons, ih, Slab.capacity_remove]

theorem capacity_detach (roster : Roster) (handle : Handle) :
    (roster.detach handle).2.messages.capacity = roster.messages.capacity := by
  cases hget : roster.get? handle with
  | none => rw [detach_of_absent hget]
  | some member => rw [(detach_of_get? hget).2.2, capacity_release]

end Roster
end Rendezvous
