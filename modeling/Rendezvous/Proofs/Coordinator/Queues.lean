import Rendezvous.Coordinator.Roster
import Rendezvous.Proofs.Memory.SlabOrder

/-!
# Rendezvous.Proofs.Coordinator.Queues

**Every queued message belongs to one member.** All queues of a roster draw on one
slab of messages. In a `WellFormed` roster each slot in a queue is live, stands in that
queue once and in no other. Then the queues can be read as lists of messages
(`pending`), and an operation on one member does nothing to the lists of the others:

* `pending_post` adds a message at the end of one list;
* `fst_takeNext` and `pending_takeNext` take one off the front;
* `get?_detach` drops a member with its list.

Every operation keeps a roster well formed.
-/

namespace Rendezvous
namespace Roster

variable {roster : Roster} {handle other : Handle} {member : Member} {slot : Handle}

/-- The messages queued for the member that a handle names, oldest first. -/
def pending (roster : Roster) (handle : Handle) : List Message :=
  match roster.get? handle with
  | some member => roster.messagesFor member
  | none => []

theorem pending_of_get? (h : roster.get? handle = some member) :
    roster.pending handle = roster.messagesFor member := by
  simp [pending, h]

theorem pending_of_absent (h : roster.get? handle = none) : roster.pending handle = [] := by
  simp [pending, h]

/-- Both slabs are well formed, and every slot in a queue is live and in no other place
of any queue. -/
structure WellFormed (roster : Roster) : Prop where
  members : roster.members.WellFormed
  messages : roster.messages.WellFormed
  live : ∀ {handle member slot}, roster.get? handle = some member → slot ∈ member.queue →
    ∃ msg, roster.messages.get? slot = some msg
  nodup : ∀ {handle member}, roster.get? handle = some member → member.queue.Nodup
  apart : ∀ {handle other member member' slot}, roster.get? handle = some member →
    roster.get? other = some member' → slot ∈ member.queue → slot ∈ member'.queue → handle = other

theorem wellFormed_empty : empty.WellFormed where
  members := Slab.wellFormed_empty
  messages := Slab.wellFormed_empty
  live := by simp [empty, get?, Slab.empty, Slab.get?]
  nodup := by simp [empty, get?, Slab.empty, Slab.get?]
  apart := by simp [empty, get?, Slab.empty, Slab.get?]

/-! ### Changing a member in place -/

@[simp] theorem get?_modify (roster : Roster) (handle other : Handle) (f : Member → Member) :
    (roster.modify handle f).get? other =
      if other = handle then (roster.get? other).map f else roster.get? other := by
  simp [get?, modify]

/-- A roster stays well formed as long as queues only lose slots and the slots that are
left keep their messages. -/
theorem WellFormed.shrink (h : roster.WellFormed) {roster' : Roster}
    (hmembers : roster'.members.WellFormed) (hmessages : roster'.messages.WellFormed)
    (hqueue : ∀ {other member}, roster'.get? other = some member →
      member.queue = [] ∨
        ∃ before, roster.get? other = some before ∧ member.queue.Sublist before.queue)
    (hkeep : ∀ {other member slot}, roster'.get? other = some member → slot ∈ member.queue →
      roster'.messages.get? slot = roster.messages.get? slot) : roster'.WellFormed := by
  have hmem : ∀ {other member slot}, roster'.get? other = some member → slot ∈ member.queue →
      ∃ before, roster.get? other = some before ∧ slot ∈ before.queue := by
    intro other member slot hget hslot
    rcases hqueue hget with hnil | ⟨before, hbefore, hsub⟩
    · simp [hnil] at hslot
    · exact ⟨before, hbefore, hsub.subset hslot⟩
  refine ⟨hmembers, hmessages, ?_, ?_, ?_⟩
  · intro other member slot hget hslot
    obtain ⟨before, hbefore, hmember⟩ := hmem hget hslot
    rw [hkeep hget hslot]
    exact h.live hbefore hmember
  · intro other member hget
    rcases hqueue hget with hnil | ⟨before, hbefore, hsub⟩
    · simp [hnil]
    · exact (h.nodup hbefore).sublist hsub
  · -- Two queues that share a slot now shared it before.
    intro first second member member' slot hfirst hsecond hslot hslot'
    obtain ⟨before, hbefore, hmember⟩ := hmem hfirst hslot
    obtain ⟨before', hbefore', hmember'⟩ := hmem hsecond hslot'
    exact h.apart hbefore hbefore' hmember hmember'

/-- Where a member comes from that is there after one has been changed. -/
theorem get?_of_modify {other : Handle} {f : Member → Member} {member' : Member}
    (hget : (roster.modify handle f).get? other = some member') :
    ∃ member, roster.get? other = some member ∧
      ((other ≠ handle ∧ member' = member) ∨ (other = handle ∧ member' = f member)) := by
  rw [get?_modify] at hget
  by_cases hsame : other = handle
  · rw [if_pos hsame] at hget
    obtain ⟨member, hmember, rfl⟩ := Option.map_eq_some_iff.1 hget
    exact ⟨member, hmember, .inr ⟨hsame, rfl⟩⟩
  · rw [if_neg hsame] at hget
    exact ⟨member', hget, .inl ⟨hsame, rfl⟩⟩

theorem WellFormed.modify (h : roster.WellFormed) (handle : Handle) {f : Member → Member}
    (hf : ∀ member, (f member).queue = member.queue) : (roster.modify handle f).WellFormed := by
  refine h.shrink (h.members.modify handle f) h.messages ?_ fun _ _ => rfl
  intro other member hget
  obtain ⟨before, hbefore, ⟨-, rfl⟩ | ⟨-, rfl⟩⟩ := get?_of_modify hget
  · exact .inr ⟨member, hbefore, List.Sublist.refl _⟩
  · exact .inr ⟨before, hbefore, by rw [hf]⟩

theorem pending_modify (roster : Roster) (handle other : Handle) {f : Member → Member}
    (hf : ∀ member, (f member).queue = member.queue) :
    (roster.modify handle f).pending other = roster.pending other := by
  unfold pending
  rw [get?_modify]
  by_cases hsame : other = handle
  · rw [if_pos hsame]
    cases roster.get? other with
    | none => rfl
    | some member => simp [messagesFor, hf, modify]
  · rw [if_neg hsame]
    rfl

/-! ### Attaching -/

theorem get?_enroll (h : roster.WellFormed) (stream : FramedStream) (addr : SocketAddr)
    (timer : Timer) (other : Handle) :
    (roster.enroll stream addr timer).val.2.get? other =
      if other = (roster.enroll stream addr timer).val.1 then some (.fresh stream addr timer)
      else roster.get? other :=
  h.members.get?_insert _ other

/-- A connection is attached under a handle that named nobody. -/
theorem get?_fst_enroll (h : roster.WellFormed) (stream : FramedStream) (addr : SocketAddr)
    (timer : Timer) : roster.get? (roster.enroll stream addr timer).val.1 = none :=
  h.members.get?_fst_insert _

/-- Whoever is a member after somebody has been attached is new or was one before. -/
theorem get?_of_enroll (h : roster.WellFormed) {stream : FramedStream} {addr : SocketAddr}
    {timer : Timer} (hafter : (roster.enroll stream addr timer).val.2.get? other = some member) :
    (other = (roster.enroll stream addr timer).val.1 ∧ member = .fresh stream addr timer) ∨
      (other ≠ (roster.enroll stream addr timer).val.1 ∧ roster.get? other = some member) := by
  rw [get?_enroll h] at hafter
  split at hafter
  next hsame => exact .inl ⟨hsame, (Option.some.inj hafter).symm⟩
  next hne => exact .inr ⟨hne, hafter⟩

theorem get?_enroll_of_get? (h : roster.WellFormed) (hget : roster.get? handle = some member)
    (stream : FramedStream) (addr : SocketAddr) (timer : Timer) :
    (roster.enroll stream addr timer).val.2.get? handle = some member := by
  rw [get?_enroll h, if_neg]
  · exact hget
  · rintro rfl
    rw [get?_fst_enroll h] at hget
    cases hget

theorem WellFormed.enroll (h : roster.WellFormed) (stream : FramedStream) (addr : SocketAddr)
    (timer : Timer) : (roster.enroll stream addr timer).val.2.WellFormed := by
  refine h.shrink (h.members.insert _) h.messages ?_ fun _ _ => rfl
  intro other member hget
  rcases get?_of_enroll h hget with ⟨-, rfl⟩ | ⟨-, hbefore⟩
  · exact .inl rfl
  · exact .inr ⟨member, hbefore, List.Sublist.refl _⟩

theorem pending_enroll (h : roster.WellFormed) (stream : FramedStream) (addr : SocketAddr)
    (timer : Timer) (other : Handle) :
    (roster.enroll stream addr timer).val.2.pending other = roster.pending other := by
  unfold pending
  rw [get?_enroll h]
  by_cases hsame : other = (roster.enroll stream addr timer).val.1
  · rw [if_pos hsame, hsame, get?_fst_enroll h]
    rfl
  · rw [if_neg hsame]
    rfl

/-! ### Posting -/

theorem post_of_absent (habsent : roster.get? handle = none) (msg : Message) :
    roster.post handle msg = roster := by
  have hcontains : roster.members.contains handle = false := by
    simpa [Slab.contains, get?] using habsent
  simp [post, hcontains]

theorem post_of_get? (hget : roster.get? handle = some member) (msg : Message) :
    roster.post handle msg =
      { roster with
        members := roster.members.modify handle fun member =>
          { member with queue := member.queue ++ [(roster.messages.insert msg).1] }
        messages := (roster.messages.insert msg).2 } := by
  have hcontains : roster.members.contains handle = true := by
    simp [Slab.contains, show roster.members.get? handle = some member from hget]
  simp [post, hcontains]

theorem get?_post (roster : Roster) (handle other : Handle) (msg : Message) :
    (roster.post handle msg).get? other =
      if other = handle then
        (roster.get? other).map fun member =>
          { member with queue := member.queue ++ [(roster.messages.insert msg).1] }
      else roster.get? other := by
  cases hget : roster.get? handle with
  | none =>
      rw [post_of_absent hget]
      by_cases hsame : other = handle <;> simp [hsame, hget]
  | some member =>
      rw [post_of_get? hget]
      simp [get?]

theorem messages_post (hget : roster.get? handle = some member) (msg : Message) :
    (roster.post handle msg).messages = (roster.messages.insert msg).2 := by
  rw [post_of_get? hget]

/-- The slot of a new message is in no queue. -/
theorem WellFormed.fst_insert_not_mem (h : roster.WellFormed)
    (hget : roster.get? handle = some member) (msg : Message) :
    (roster.messages.insert msg).1 ∉ member.queue := by
  intro hslot
  obtain ⟨old, hold⟩ := h.live hget hslot
  rw [h.messages.get?_fst_insert] at hold
  cases hold

/-- What is queued keeps its message when another is stored. -/
theorem WellFormed.get?_insert_of_mem (h : roster.WellFormed)
    (hget : roster.get? handle = some member) (hslot : slot ∈ member.queue) (msg : Message) :
    (roster.messages.insert msg).2.get? slot = roster.messages.get? slot := by
  rw [h.messages.get?_insert, if_neg]
  rintro rfl
  exact h.fst_insert_not_mem hget msg hslot

/-- Every queue after a post is one from before, the target's with the new slot at
its end. -/
theorem queue_post {msg : Message} (hafter : (roster.post handle msg).get? other = some member) :
    ∃ before, roster.get? other = some before ∧
      member.queue = before.queue ++
        if other = handle then [(roster.messages.insert msg).1] else [] := by
  rw [get?_post] at hafter
  by_cases hsame : other = handle
  · rw [if_pos hsame] at hafter
    obtain ⟨before, hbefore, rfl⟩ := Option.map_eq_some_iff.1 hafter
    exact ⟨before, hbefore, by simp [hsame]⟩
  · rw [if_neg hsame] at hafter
    exact ⟨member, hafter, by simp [hsame]⟩

theorem mem_queue_post {msg : Message} (hafter : (roster.post handle msg).get? other = some member)
    (hslot : slot ∈ member.queue) :
    ∃ before, roster.get? other = some before ∧
      (slot ∈ before.queue ∨ (other = handle ∧ slot = (roster.messages.insert msg).1)) := by
  obtain ⟨before, hbefore, heq⟩ := queue_post hafter
  refine ⟨before, hbefore, ?_⟩
  rw [heq, List.mem_append] at hslot
  refine hslot.imp_right ?_
  intro hslot
  by_cases hsame : other = handle
  · exact ⟨hsame, by simpa [hsame] using hslot⟩
  · simp [hsame] at hslot

theorem WellFormed.post (h : roster.WellFormed) (handle : Handle) (msg : Message) :
    (roster.post handle msg).WellFormed := by
  cases hget : roster.get? handle with
  | none => rwa [post_of_absent hget]
  | some target =>
      have hmessages := messages_post hget msg
      refine ⟨?_, ?_, ?_, ?_, ?_⟩
      · rw [post_of_get? hget]
        exact h.members.modify _ _
      · rw [hmessages]
        exact h.messages.insert msg
      · intro other member slot hafter hslot
        rw [hmessages]
        obtain ⟨before, hbefore, hslot | ⟨-, rfl⟩⟩ := mem_queue_post hafter hslot
        · rw [h.get?_insert_of_mem hbefore hslot]
          exact h.live hbefore hslot
        · exact ⟨msg, by rw [h.messages.get?_insert, if_pos rfl]⟩
      · intro other member hafter
        obtain ⟨before, hbefore, heq⟩ := queue_post hafter
        rw [heq]
        split
        · rw [List.nodup_append]
          refine ⟨h.nodup hbefore, List.pairwise_singleton .., ?_⟩
          intro slot hslot new hnew hne
          rw [List.mem_singleton.1 hnew] at hne
          exact h.fst_insert_not_mem hbefore msg (hne ▸ hslot)
        · simpa using h.nodup hbefore
      · -- Only the target's queue has the new slot; all others were apart before.
        intro first second member member' slot hfirst hsecond hslot hslot'
        obtain ⟨before, hbefore, hslot | ⟨rfl, rfl⟩⟩ := mem_queue_post hfirst hslot
        · obtain ⟨before', hbefore', hslot' | ⟨-, rfl⟩⟩ := mem_queue_post hsecond hslot'
          · exact h.apart hbefore hbefore' hslot hslot'
          · exact absurd hslot (h.fst_insert_not_mem hbefore msg)
        · obtain ⟨before', hbefore', hslot' | ⟨rfl, -⟩⟩ := mem_queue_post hsecond hslot'
          · exact absurd hslot' (h.fst_insert_not_mem hbefore' msg)
          · rfl

theorem pending_post (h : roster.WellFormed) (hget : roster.get? handle = some member)
    (msg : Message) (other : Handle) :
    (roster.post handle msg).pending other =
      roster.pending other ++ if other = handle then [msg] else [] := by
  have hmessages := messages_post hget msg
  unfold pending
  rw [get?_post]
  cases hother : roster.get? other with
  | none =>
      have hne : other ≠ handle := by
        rintro rfl
        simp [hother] at hget
      simp [hne]
  | some before =>
      have hkeep : before.queue.filterMap (roster.messages.insert msg).2.get? =
          before.queue.filterMap roster.messages.get? :=
        List.filterMap_congr fun slot hslot => h.get?_insert_of_mem hother hslot msg
      have hnew :
          (roster.messages.insert msg).2.get? (roster.messages.insert msg).1 = some msg := by
        rw [h.messages.get?_insert, if_pos rfl]
      by_cases hsame : other = handle
      · simp only [hsame, if_true, Option.map_some, messagesFor, hmessages,
          List.filterMap_append, hkeep]
        simp [hnew]
      · simp [hsame, messagesFor, hmessages, hkeep]

/-! ### Taking -/

theorem takeNext_of_absent (hget : roster.get? handle = none) :
    roster.takeNext handle = (none, roster) := by
  have hmembers : roster.members.get? handle = none := hget
  simp [takeNext, hmembers]

theorem takeNext_of_nil (hget : roster.get? handle = some member) (hqueue : member.queue = []) :
    roster.takeNext handle = (none, roster) := by
  have hmembers : roster.members.get? handle = some member := hget
  obtain ⟨stream, addr, entry, queue, latch, watch, timer⟩ := member
  simp only at hqueue
  subst hqueue
  simp [takeNext, hmembers]

theorem takeNext_of_cons {rest : List Handle} (hget : roster.get? handle = some member)
    (hqueue : member.queue = slot :: rest) :
    roster.takeNext handle =
      (roster.messages.get? slot,
        { roster with
          members := roster.members.modify handle fun member => { member with queue := rest }
          messages := (roster.messages.remove slot).2 }) := by
  have hmembers : roster.members.get? handle = some member := hget
  obtain ⟨stream, addr, entry, queue, latch, watch, timer⟩ := member
  simp only at hqueue
  subst hqueue
  simp [takeNext, hmembers]

/-- Nothing can be taken, and nothing changes, or the slot at the head of a queue is. -/
theorem takeNext_cases (roster : Roster) (handle : Handle) :
    ((∀ member, roster.get? handle = some member → member.queue = []) ∧
      roster.takeNext handle = (none, roster)) ∨
    ∃ member slot rest, roster.get? handle = some member ∧ member.queue = slot :: rest ∧
      roster.takeNext handle =
        (roster.messages.get? slot,
          { roster with
            members := roster.members.modify handle fun member => { member with queue := rest }
            messages := (roster.messages.remove slot).2 }) := by
  cases hget : roster.get? handle with
  | none => exact .inl ⟨nofun, takeNext_of_absent hget⟩
  | some member =>
      cases hqueue : member.queue with
      | nil =>
          refine .inl ⟨fun other hother => ?_, takeNext_of_nil hget hqueue⟩
          cases hother
          exact hqueue
      | cons slot rest => exact .inr ⟨member, slot, rest, rfl, hqueue, takeNext_of_cons hget hqueue⟩

theorem get?_takeNext (roster : Roster) (handle other : Handle) :
    (roster.takeNext handle).2.get? other =
      if other = handle then
        (roster.get? other).map fun member => { member with queue := member.queue.tail }
      else roster.get? other := by
  rcases takeNext_cases roster handle with ⟨hnil, htake⟩ | ⟨member, slot, rest, hget, hqueue, htake⟩
  · rw [htake]
    split
    next hsame =>
      cases hother : roster.get? other with
      | none => rfl
      | some member =>
          have htail : member.queue.tail = member.queue := by rw [hnil member (hsame ▸ hother)]; rfl
          rw [Option.map_some, htail]
    next => rfl
  · rw [htake]
    by_cases hsame : other = handle
    · have hmembers : roster.members.get? handle = some member := hget
      simp [get?, hsame, hmembers, hqueue]
    · simp [get?, hsame]

/-- Where a member comes from that is there after a message has been taken. -/
theorem get?_of_takeNext {other : Handle} {member' : Member}
    (hget : (roster.takeNext handle).2.get? other = some member') :
    ∃ member, roster.get? other = some member ∧ ((other ≠ handle ∧ member' = member) ∨
      (other = handle ∧ member' = { member with queue := member.queue.tail })) := by
  rw [get?_takeNext] at hget
  by_cases hsame : other = handle
  · rw [if_pos hsame] at hget
    obtain ⟨member, hmember, rfl⟩ := Option.map_eq_some_iff.1 hget
    exact ⟨member, hmember, .inr ⟨hsame, rfl⟩⟩
  · rw [if_neg hsame] at hget
    exact ⟨member', hget, .inl ⟨hsame, rfl⟩⟩

/-- What is left in the queues keeps its message when one is taken. -/
theorem WellFormed.messages_takeNext (h : roster.WellFormed)
    (hafter : (roster.takeNext handle).2.get? other = some member) (hslot : slot ∈ member.queue) :
    (roster.takeNext handle).2.messages.get? slot = roster.messages.get? slot := by
  rcases takeNext_cases roster handle with ⟨-, htake⟩ | ⟨target, taken, rest, hget, hqueue, htake⟩
  · rw [htake]
  · obtain ⟨before, hbefore, hwhose⟩ := get?_of_takeNext hafter
    rw [htake]
    simp only
    rw [h.messages.get?_remove, if_neg]
    -- The slot taken stood at the head of its queue, and in no other place.
    rintro rfl
    rcases hwhose with ⟨hne, rfl⟩ | ⟨rfl, rfl⟩
    · exact hne (h.apart hbefore hget hslot (by simp [hqueue]))
    · obtain rfl := Option.some.inj (hget.symm.trans hbefore)
      have hnodup := h.nodup hget
      rw [hqueue, List.nodup_cons] at hnodup
      exact hnodup.1 (by simpa [hqueue] using hslot)

theorem WellFormed.takeNext (h : roster.WellFormed) (handle : Handle) :
    (roster.takeNext handle).2.WellFormed := by
  have hslabs : (roster.takeNext handle).2.members.WellFormed ∧
      (roster.takeNext handle).2.messages.WellFormed := by
    rcases takeNext_cases roster handle with ⟨-, htake⟩ | ⟨_, _, _, -, -, htake⟩
    · rw [htake]
      exact ⟨h.members, h.messages⟩
    · rw [htake]
      exact ⟨h.members.modify _ _, h.messages.remove _⟩
  refine h.shrink hslabs.1 hslabs.2 ?_ h.messages_takeNext
  intro other member hafter
  obtain ⟨before, hbefore, ⟨-, rfl⟩ | ⟨-, rfl⟩⟩ := get?_of_takeNext hafter
  · exact .inr ⟨member, hbefore, List.Sublist.refl _⟩
  · exact .inr ⟨before, hbefore, List.tail_sublist _⟩

/-- A member with a queue has a message to take. -/
theorem messagesFor_cons {rest : List Handle} (h : roster.WellFormed)
    (hget : roster.get? handle = some member) (hqueue : member.queue = slot :: rest) :
    ∃ msg, roster.messages.get? slot = some msg ∧
      roster.messagesFor member = msg :: rest.filterMap roster.messages.get? := by
  have hslot : slot ∈ member.queue := by simp [hqueue]
  obtain ⟨msg, hmsg⟩ := h.live hget hslot
  exact ⟨msg, hmsg, by simp [messagesFor, hqueue, hmsg]⟩

/-- Taking gives the oldest message. -/
theorem fst_takeNext (h : roster.WellFormed) (handle : Handle) :
    (roster.takeNext handle).1 = (roster.pending handle).head? := by
  rcases takeNext_cases roster handle with ⟨hnil, htake⟩ | ⟨member, slot, rest, hget, hqueue, htake⟩
  · have hempty : roster.pending handle = [] := by
      cases hget : roster.get? handle with
      | none => exact pending_of_absent hget
      | some member => rw [pending_of_get? hget, messagesFor, hnil member hget, List.filterMap_nil]
    rw [htake, hempty]
    rfl
  · obtain ⟨msg, hmsg, hlist⟩ := messagesFor_cons h hget hqueue
    rw [htake, pending_of_get? hget, hlist, hmsg]
    rfl

/-- When there is nothing to take, nothing changes. -/
theorem snd_takeNext_of_none (h : roster.WellFormed) (hnone : (roster.takeNext handle).1 = none) :
    (roster.takeNext handle).2 = roster := by
  rcases takeNext_cases roster handle with ⟨-, htake⟩ | ⟨member, slot, rest, hget, hqueue, htake⟩
  · rw [htake]
  · obtain ⟨msg, hmsg, -⟩ := messagesFor_cons h hget hqueue
    rw [htake, hmsg] at hnone
    cases hnone

@[simp] theorem addresses_takeNext (roster : Roster) (handle : Handle) :
    (roster.takeNext handle).2.addresses = roster.addresses := by
  rcases takeNext_cases roster handle with ⟨-, htake⟩ | ⟨_, _, _, -, -, htake⟩ <;> rw [htake]

theorem pending_takeNext (h : roster.WellFormed) (handle other : Handle) :
    (roster.takeNext handle).2.pending other =
      if other = handle then (roster.pending other).tail else roster.pending other := by
  have hafter := get?_takeNext roster handle other
  cases hother : roster.get? other with
  | none =>
      have hnone : (roster.takeNext handle).2.get? other = none := by
        rw [hafter, hother]
        split <;> rfl
      rw [pending_of_absent hnone, pending_of_absent hother]
      split <;> rfl
  | some member =>
      rw [hother] at hafter
      rw [pending_of_get? hother]
      by_cases hsame : other = handle
      · rw [if_pos hsame] at hafter ⊢
        rw [pending_of_get? hafter]
        have hkeep : (roster.takeNext handle).2.messagesFor
            { member with queue := member.queue.tail } =
              member.queue.tail.filterMap roster.messages.get? :=
          List.filterMap_congr fun slot hslot => h.messages_takeNext hafter hslot
        rw [hkeep]
        cases hqueue : member.queue with
        | nil => simp [messagesFor, hqueue]
        | cons slot rest =>
            obtain ⟨msg, -, hlist⟩ := messagesFor_cons h hother hqueue
            rw [hlist]
            rfl
      · rw [if_neg hsame] at hafter ⊢
        rw [pending_of_get? hafter]
        exact List.filterMap_congr fun slot hslot => h.messages_takeNext hafter hslot

/-! ### Detaching -/

/-- The slab of messages after a whole queue has been released. -/
theorem wellFormed_release {messages : Slab Message} (h : messages.WellFormed)
    (queue : List Handle) :
    (queue.foldl (fun messages slot => (messages.remove slot).2) messages).WellFormed := by
  induction queue generalizing messages with
  | nil => exact h
  | cons slot queue ih => exact ih (h.remove slot)

/-- What was released is gone, and nothing else. -/
theorem get?_release {messages : Slab Message} (h : messages.WellFormed) (queue : List Handle)
    (slot : Handle) :
    (queue.foldl (fun messages slot => (messages.remove slot).2) messages).get? slot =
      if slot ∈ queue then none else messages.get? slot := by
  induction queue generalizing messages with
  | nil => rfl
  | cons first queue ih =>
      rw [List.foldl_cons, ih (h.remove first), h.get?_remove]
      by_cases hfirst : slot = first <;> simp [hfirst]

theorem detach_of_absent (hget : roster.get? handle = none) :
    roster.detach handle = (none, roster) := by
  have hremoved : (roster.members.remove handle).1 = none := by rw [Slab.fst_remove]; exact hget
  unfold detach
  split
  next => rfl
  next heq => rw [heq] at hremoved; cases hremoved

theorem detach_of_get? (hget : roster.get? handle = some member) :
    (roster.detach handle).1 = some { member with queue := [] } ∧
      (roster.detach handle).2.members = (roster.members.remove handle).2 ∧
        (roster.detach handle).2.messages =
          member.queue.foldl (fun messages slot => (messages.remove slot).2) roster.messages := by
  have hremoved : (roster.members.remove handle).1 = some member := by
    rw [Slab.fst_remove]
    exact hget
  unfold detach
  split
  next heq => rw [heq] at hremoved; cases hremoved
  next heq =>
    rw [heq] at hremoved ⊢
    cases hremoved
    exact ⟨rfl, rfl, rfl⟩

theorem get?_detach (h : roster.WellFormed) (handle other : Handle) :
    (roster.detach handle).2.get? other = if other = handle then none else roster.get? other := by
  cases hget : roster.get? handle with
  | none =>
      rw [detach_of_absent hget]
      by_cases hsame : other = handle <;> simp [hsame, hget]
  | some member =>
      rw [get?, (detach_of_get? hget).2.1]
      exact h.members.get?_remove handle other

theorem get?_of_detach (h : roster.WellFormed)
    (hafter : (roster.detach handle).2.get? other = some member) :
    other ≠ handle ∧ roster.get? other = some member := by
  rw [get?_detach h] at hafter
  split at hafter
  next => cases hafter
  next hne => exact ⟨hne, hafter⟩

theorem WellFormed.detach (h : roster.WellFormed) (handle : Handle) :
    (roster.detach handle).2.WellFormed := by
  cases hget : roster.get? handle with
  | none => rwa [detach_of_absent hget]
  | some target =>
      obtain ⟨-, hmembers, hmessages⟩ := detach_of_get? hget
      refine h.shrink (hmembers ▸ h.members.remove handle)
        (hmessages ▸ wellFormed_release h.messages _) ?_ ?_
      · intro other member hafter
        exact .inr ⟨member, (get?_of_detach h hafter).2, List.Sublist.refl _⟩
      · intro other member slot hafter hslot
        obtain ⟨hne, hother⟩ := get?_of_detach h hafter
        rw [hmessages, get?_release h.messages]
        exact if_neg fun hmem => hne (h.apart hother hget hslot hmem)

/-- Who leaves takes only their own messages along. -/
theorem pending_detach (h : roster.WellFormed) (handle other : Handle) :
    (roster.detach handle).2.pending other =
      if other = handle then [] else roster.pending other := by
  have hafter := get?_detach h handle other
  by_cases hsame : other = handle
  · rw [if_pos hsame] at hafter ⊢
    exact pending_of_absent hafter
  · rw [if_neg hsame] at hafter ⊢
    cases hget : roster.get? handle with
    | none => rw [detach_of_absent hget]
    | some target =>
        obtain ⟨-, -, hmessages⟩ := detach_of_get? hget
        unfold pending
        rw [hafter]
        cases hother : roster.get? other with
        | none => rfl
        | some member =>
            refine List.filterMap_congr fun slot hslot => ?_
            rw [hmessages, get?_release h.messages]
            exact if_neg fun hmem => hsame (h.apart hother hget hslot hmem)

/-! ### Announcing -/

/-- A roster after messages have been posted in turn. -/
def postAll (roster : Roster) (mail : List (Handle × Message)) : Roster :=
  mail.foldl (fun roster item => roster.post item.1 item.2) roster

theorem WellFormed.postAll (h : roster.WellFormed) (mail : List (Handle × Message)) :
    (roster.postAll mail).WellFormed := by
  induction mail generalizing roster with
  | nil => exact h
  | cons item mail ih => exact ih (h.post item.1 item.2)

/-- Posting lengthens the queue of a member and leaves everything else of it alone. -/
theorem get?_postAll (roster : Roster) (mail : List (Handle × Message)) (other : Handle) :
    ∃ slots : List Handle, (roster.postAll mail).get? other =
      (roster.get? other).map fun member => { member with queue := member.queue ++ slots } := by
  induction mail generalizing roster with
  | nil => exact ⟨[], by cases h : roster.get? other <;> simp [postAll, h]⟩
  | cons item mail ih =>
      obtain ⟨slots, hslots⟩ := ih (roster.post item.1 item.2)
      rw [get?_post] at hslots
      by_cases hsame : other = item.1
      · rw [if_pos hsame, Option.map_map] at hslots
        refine ⟨(roster.messages.insert item.2).1 :: slots, hslots.trans ?_⟩
        simp [Function.comp_def]
      · rw [if_neg hsame] at hslots
        exact ⟨slots, hslots⟩

/-- Each member's list grows by the messages that are for it. -/
theorem pending_postAll (h : roster.WellFormed) {mail : List (Handle × Message)}
    (hmail : ∀ item ∈ mail, ∃ member, roster.get? item.1 = some member) (other : Handle) :
    (roster.postAll mail).pending other =
      roster.pending other ++ (mail.filter fun item => item.1 = other).map Prod.snd := by
  induction mail generalizing roster with
  | nil => simp [postAll]
  | cons item mail ih =>
      obtain ⟨member, hget⟩ := hmail item List.mem_cons_self
      have hrest : ∀ next ∈ mail,
          ∃ member, (roster.post item.1 item.2).get? next.1 = some member := by
        intro next hnext
        obtain ⟨member, hmember⟩ := hmail next (List.mem_cons_of_mem _ hnext)
        rw [get?_post]
        split <;> simp [hmember]
      have hstep : roster.postAll (item :: mail) = (roster.post item.1 item.2).postAll mail := rfl
      rw [hstep, ih (h.post item.1 item.2) hrest, pending_post h hget]
      by_cases hsame : other = item.1
      · simp [hsame]
      · have hne : item.1 ≠ other := fun heq => hsame heq.symm
        simp [hsame, hne]

@[simp] theorem addresses_post (roster : Roster) (handle : Handle) (msg : Message) :
    (roster.post handle msg).addresses = roster.addresses := by
  unfold post
  simp only
  split <;> rfl

@[simp] theorem addresses_postAll (roster : Roster) (mail : List (Handle × Message)) :
    (roster.postAll mail).addresses = roster.addresses := by
  induction mail generalizing roster with
  | nil => rfl
  | cons item mail ih => exact (ih _).trans (addresses_post roster item.1 item.2)

/-- The others are the members that own their addresses and have announced something. -/
theorem WellFormed.mem_others (h : roster.WellFormed) {self : Handle} {entry : PeerEntry} :
    (handle, entry) ∈ roster.others self ↔
      handle ≠ self ∧ ∃ member, roster.get? handle = some member ∧
        roster.ownsAddress handle member = true ∧ member.entry = some entry := by
  unfold others
  rw [List.mem_filterMap]
  constructor
  · rintro ⟨⟨other, member⟩, hmem, hother⟩
    simp only [Bool.and_eq_true, decide_eq_true_eq] at hother
    split at hother
    next howns =>
      obtain ⟨own, hown, heq⟩ := Option.map_eq_some_iff.1 hother
      cases heq
      exact ⟨howns.1, member, h.members.mem_toList.1 hmem, howns.2, hown⟩
    next => cases hother
  · rintro ⟨hne, member, hget, howns, hentry⟩
    exact ⟨(handle, member), h.members.mem_toList.2 hget, by simp [hne, howns, hentry]⟩

/-- The pages hold all entries in order. -/
theorem flatten_pages (entries : List PeerEntry) : (pages entries).flatten = entries := by
  fun_induction pages entries with
  | case1 entries h => simp
  | case2 entries h ih => simp [ih]

/-- Every page fits a frame. -/
theorem length_le_of_mem_pages (entries : List PeerEntry) :
    ∀ page ∈ pages entries, page.length ≤ maxListLength := by
  fun_induction pages entries with
  | case1 entries h => simpa using h
  | case2 entries h ih =>
      intro page hpage
      rcases List.mem_cons.1 hpage with rfl | hpage
      · exact List.length_take_le ..
      · exact ih page hpage

/-- A roster in which a member's announcement is registered and noted. -/
def register (roster : Roster) (self : Handle) (control : SocketV4) (entry : PeerEntry) : Roster :=
  ({ roster with addresses := (roster.addresses.insert control self).2 } : Roster).modify self
    fun member => { member with entry := some entry }

/-- The messages that an announcement brings about: the pages of the list for the member
itself, and one entry for each other. -/
def announcements (self : Handle) (entry : PeerEntry) (others : List (Handle × PeerEntry)) :
    List (Handle × Message) :=
  ((pages (others.map (·.2))).map fun list => (self, Message.peersToConnect list)) ++
    others.map fun other => (other.1, .peersToConnect [entry])

/-- The messages for the one who announces: its pages. -/
theorem announcements_self {self : Handle} {others : List (Handle × PeerEntry)}
    (hothers : ∀ third ∈ others, third.1 ≠ self) (entry : PeerEntry) :
    ((announcements self entry others).filter fun item => item.1 = self).map Prod.snd =
      (pages (others.map (·.2))).map Message.peersToConnect := by
  have hnone : others.filter (fun third => third.1 = self) = [] :=
    List.filter_eq_nil_iff.2 fun third hthird => by simpa using hothers third hthird
  simp [announcements, List.filter_map, Function.comp_def, hnone]

/-- The messages for another: one entry for each time it is among the others. -/
theorem announcements_other {self : Handle} (hne : other ≠ self) (entry : PeerEntry)
    (others : List (Handle × PeerEntry)) :
    ((announcements self entry others).filter fun item => item.1 = other).map Prod.snd =
      (others.filter fun third => third.1 = other).map fun _ => .peersToConnect [entry] := by
  simp [announcements, List.filter_map, Function.comp_def, hne.symm]

/-- An announcement over an IPv4 connection is registered, and the messages it brings about
are posted. -/
theorem val_introduce {control : SocketV4} (hget : roster.get? handle = some member)
    (hview : member.addr.ipv4View = some control) (entry : PeerEntry) :
    (roster.introduce handle entry).val =
      let registered := roster.register handle control entry
      let others := registered.others handle
      (some others.length, registered.postAll (announcements handle entry others)) := by
  have hfoldl : ∀ (roster : Roster) (others : List (Handle × PeerEntry)),
      others.foldl (fun roster other => roster.post other.1 (.peersToConnect [entry]))
        ((pages (others.map (·.2))).foldl
          (fun roster list => roster.post handle (.peersToConnect list)) roster) =
        roster.postAll (announcements handle entry others) := by
    intro roster others
    simp [postAll, announcements, List.foldl_append, List.foldl_map]
  unfold introduce
  simp only [hget, hview, Logged.val_bind, hfoldl]
  split <;> rfl

/-- An announcement from nobody, or over a connection without an IPv4 view, is
ignored. -/
theorem val_introduce_ignored (entry : PeerEntry)
    (h : ∀ member, roster.get? handle = some member → member.addr.ipv4View = none) :
    (roster.introduce handle entry).val = (none, roster) := by
  unfold introduce
  cases hget : roster.get? handle with
  | none => rfl
  | some member =>
      simp only [h member hget]
      rfl

theorem get?_register (roster : Roster) (self : Handle) (control : SocketV4) (entry : PeerEntry)
    (other : Handle) :
    (roster.register self control entry).get? other =
      if other = self then
        (roster.get? other).map fun member => { member with entry := some entry }
      else roster.get? other := by
  rw [register, get?_modify]
  rfl

/-- Whoever is a member after an announcement was registered is its maker or was the same
before. -/
theorem get?_of_register (hget : roster.get? handle = some member) {key : SocketV4}
    {entry : PeerEntry} {member' : Member}
    (hafter : (roster.register handle key entry).get? other = some member') :
    (other = handle ∧ member' = { member with entry := some entry }) ∨
      (other ≠ handle ∧ roster.get? other = some member') := by
  rw [get?_register] at hafter
  split at hafter
  next hsame =>
    rw [hsame, hget] at hafter
    exact .inl ⟨hsame, (Option.some.inj hafter).symm⟩
  next hne => exact .inr ⟨hne, hafter⟩

theorem WellFormed.register (h : roster.WellFormed) (self : Handle) (control : SocketV4)
    (entry : PeerEntry) : (roster.register self control entry).WellFormed := by
  have haddresses : ({ roster with addresses := (roster.addresses.insert control self).2 } :
      Roster).WellFormed :=
    h.shrink h.members h.messages
      (fun hget => .inr ⟨_, hget, List.Sublist.refl _⟩) (fun _ _ => rfl)
  exact haddresses.modify self fun _ => rfl

theorem pending_register (roster : Roster) (self : Handle) (control : SocketV4)
    (entry : PeerEntry) (other : Handle) :
    (roster.register self control entry).pending other = roster.pending other := by
  rw [register, pending_modify]
  · rfl
  · exact fun _ => rfl

theorem WellFormed.introduce (h : roster.WellFormed) (handle : Handle) (entry : PeerEntry) :
    (roster.introduce handle entry).val.2.WellFormed := by
  by_cases hignored : ∀ member, roster.get? handle = some member → member.addr.ipv4View = none
  · rwa [val_introduce_ignored entry hignored]
  · simp only [not_forall] at hignored
    obtain ⟨member, hget, hview⟩ := hignored
    obtain ⟨control, hcontrol⟩ := Option.ne_none_iff_exists'.1 hview
    rw [val_introduce hget hcontrol]
    exact (h.register handle control entry).postAll _

/-- An announcement gives every member at most a longer queue, and the one who made it an
entry. -/
theorem get?_introduce (roster : Roster) (handle : Handle) (entry : PeerEntry) (other : Handle) :
    ∃ (entries : Member → Option PeerEntry) (slots : List Handle),
      (roster.introduce handle entry).val.2.get? other =
        (roster.get? other).map fun member =>
          { member with entry := entries member, queue := member.queue ++ slots } := by
  by_cases hignored : ∀ member, roster.get? handle = some member → member.addr.ipv4View = none
  · rw [val_introduce_ignored entry hignored]
    exact ⟨fun member => member.entry, [], by simp⟩
  · simp only [not_forall] at hignored
    obtain ⟨member, hget, hview⟩ := hignored
    obtain ⟨control, hcontrol⟩ := Option.ne_none_iff_exists'.1 hview
    rw [val_introduce hget hcontrol]
    obtain ⟨slots, hslots⟩ := get?_postAll (roster.register handle control entry)
      (announcements handle entry ((roster.register handle control entry).others handle)) other
    rw [get?_register] at hslots
    by_cases hsame : other = handle
    · rw [if_pos hsame, Option.map_map] at hslots
      exact ⟨fun _ => some entry, slots, hslots⟩
    · rw [if_neg hsame] at hslots
      exact ⟨fun member => member.entry, slots, hslots⟩

/-- Whoever is written to because of an announcement is attached. -/
theorem WellFormed.attached_of_mem_announcements (h : roster.WellFormed)
    (hget : roster.get? handle = some member) (entry : PeerEntry) :
    ∀ item ∈ announcements handle entry (roster.others handle),
      ∃ member, roster.get? item.1 = some member := by
  intro item hitem
  rcases List.mem_append.1 hitem with hitem | hitem
  · obtain ⟨list, -, rfl⟩ := List.mem_map.1 hitem
    exact ⟨member, hget⟩
  · obtain ⟨⟨third, told⟩, hthird, rfl⟩ := List.mem_map.1 hitem
    obtain ⟨-, member, hmember, -⟩ := h.mem_others.1 hthird
    exact ⟨member, hmember⟩

/-- The IPv4 view of the address of the member that a handle names. -/
def viewOf (roster : Roster) (handle : Handle) : Option SocketV4 :=
  (roster.get? handle).bind fun member => member.addr.ipv4View

theorem viewOf_eq_some {control : SocketV4} :
    roster.viewOf handle = some control ↔
      ∃ member, roster.get? handle = some member ∧ member.addr.ipv4View = some control :=
  Option.bind_eq_some_iff

theorem viewOf_of_get? (hget : roster.get? handle = some member) :
    roster.viewOf handle = member.addr.ipv4View := by
  simp [viewOf, hget]

/-- The messages that an announcement brings about; it is ignored without an IPv4 view. -/
def mail (roster : Roster) (handle : Handle) (entry : PeerEntry) : List (Handle × Message) :=
  match roster.viewOf handle with
  | some control =>
    announcements handle entry ((roster.register handle control entry).others handle)
  | none => []

/-- All that an announcement brings about are lists, each of which fits a frame. -/
theorem mem_mail {entry : PeerEntry} {item : Handle × Message}
    (h : item ∈ roster.mail handle entry) :
    ∃ entries, item.2 = .peersToConnect entries ∧ entries.length ≤ maxListLength := by
  unfold mail at h
  split at h
  next =>
    rcases List.mem_append.1 h with h | h
    · obtain ⟨list, hlist, rfl⟩ := List.mem_map.1 h
      exact ⟨list, rfl, length_le_of_mem_pages _ list hlist⟩
    · obtain ⟨third, -, rfl⟩ := List.mem_map.1 h
      exact ⟨[entry], rfl, by simp [maxListLength_eq]⟩
  next => cases h

theorem introduce_of_viewOf {control : SocketV4} (hview : roster.viewOf handle = some control)
    (entry : PeerEntry) :
    (roster.introduce handle entry).val =
      (some ((roster.register handle control entry).others handle).length,
        (roster.register handle control entry).postAll (roster.mail handle entry)) := by
  obtain ⟨member, hget, hcontrol⟩ := viewOf_eq_some.1 hview
  rw [val_introduce hget hcontrol, mail, hview]

theorem introduce_of_viewOf_none (hview : roster.viewOf handle = none) (entry : PeerEntry) :
    (roster.introduce handle entry).val = (none, roster) := by
  refine val_introduce_ignored entry ?_
  intro member hget
  rw [← viewOf_of_get? hget, hview]

/-- An announcement lengthens the lists of those it is mailed to. -/
theorem pending_introduce (h : roster.WellFormed) (handle : Handle) (entry : PeerEntry)
    (other : Handle) :
    (roster.introduce handle entry).val.2.pending other =
      roster.pending other ++
        ((roster.mail handle entry).filter fun item => item.1 = other).map Prod.snd := by
  cases hview : roster.viewOf handle with
  | none => simp [introduce_of_viewOf_none hview, mail, hview]
  | some control =>
      obtain ⟨member, hget, -⟩ := viewOf_eq_some.1 hview
      have hregistered : (roster.register handle control entry).get? handle =
          some { member with entry := some entry } := by
        rw [get?_register, if_pos rfl, hget, Option.map_some]
      have hwf := h.register handle control entry
      rw [introduce_of_viewOf hview, mail, hview,
        pending_postAll hwf (hwf.attached_of_mem_announcements hregistered entry),
        pending_register]

end Roster
end Rendezvous
