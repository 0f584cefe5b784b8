import Rendezvous.Proofs.Coordinator.AddressChains
import Rendezvous.Proofs.Coordinator.Ownership

/-!
# Rendezvous.Proofs.Coordinator.Holders

**An address is bound to whoever announced from it first.** The bindings of a roster are
`Held` by a list of members when each of them has announced something and is bound under
the IPv4 view of its address, and nobody else is bound. A member that announces joins the
holders unless another one has the same view (`holdersAfter`), and stops being one when it
leaves; no other operation changes them (`Held.congr`).

What this depends on is little: the address of a member and the entry it announced, its
`card`. Also here is the order of the members, which only attaching and detaching change.
-/

namespace Rendezvous
namespace Roster

variable {roster : Roster} {handle other : Handle} {member : Member} {holders : List Handle}

/-! ### Members as others see them -/

/-- The far address of a member and what it has announced. -/
def card (roster : Roster) (handle : Handle) : Option (SocketAddr × Option PeerEntry) :=
  (roster.get? handle).map fun member => (member.addr, member.entry)

/-- The entry last announced by the member that a handle names. -/
def entryOf (roster : Roster) (handle : Handle) : Option PeerEntry :=
  (roster.get? handle).bind Member.entry

/-- Is the member that a handle names registered under its address? -/
def isRegistered (roster : Roster) (handle : Handle) : Bool :=
  (roster.get? handle).any (roster.ownsAddress handle)

theorem viewOf_eq_card (roster : Roster) (handle : Handle) :
    roster.viewOf handle = (roster.card handle).bind fun card => card.1.ipv4View := by
  rw [card, Option.bind_map]
  rfl

theorem entryOf_eq_card (roster : Roster) (handle : Handle) :
    roster.entryOf handle = (roster.card handle).bind Prod.snd := by
  rw [card, Option.bind_map]
  rfl

theorem viewOf_congr {roster' : Roster} (hcard : roster'.card handle = roster.card handle) :
    roster'.viewOf handle = roster.viewOf handle := by
  rw [viewOf_eq_card, viewOf_eq_card, hcard]

theorem entryOf_congr {roster' : Roster} (hcard : roster'.card handle = roster.card handle) :
    roster'.entryOf handle = roster.entryOf handle := by
  rw [entryOf_eq_card, entryOf_eq_card, hcard]

theorem isRegistered_iff :
    roster.isRegistered handle = true ↔
      ∃ key, roster.viewOf handle = some key ∧ roster.addresses.get? key = some handle := by
  cases hget : roster.get? handle with
  | none => simp [isRegistered, viewOf, hget]
  | some member =>
      cases hview : member.addr.ipv4View <;> simp [isRegistered, viewOf, ownsAddress, hget, hview]

theorem card_enroll (h : roster.WellFormed) (stream : FramedStream) (addr : SocketAddr)
    (timer : Timer) (other : Handle) :
    (roster.enroll stream addr timer).val.2.card other =
      if other = (roster.enroll stream addr timer).val.1 then some (addr, none)
      else roster.card other := by
  unfold card
  rw [get?_enroll h]
  split <;> rfl

@[simp] theorem card_post (roster : Roster) (handle : Handle) (msg : Message) (other : Handle) :
    (roster.post handle msg).card other = roster.card other := by
  unfold card
  rw [get?_post]
  split
  · rw [Option.map_map]
    rfl
  · rfl

@[simp] theorem card_postAll (roster : Roster) (mail : List (Handle × Message)) (other : Handle) :
    (roster.postAll mail).card other = roster.card other := by
  obtain ⟨slots, hslots⟩ := get?_postAll roster mail other
  unfold card
  rw [hslots, Option.map_map]
  rfl

@[simp] theorem card_takeNext (roster : Roster) (handle other : Handle) :
    (roster.takeNext handle).2.card other = roster.card other := by
  unfold card
  rw [get?_takeNext]
  split
  · rw [Option.map_map]
    rfl
  · rfl

theorem card_register (roster : Roster) (self : Handle) (control : SocketV4) (entry : PeerEntry)
    (other : Handle) :
    (roster.register self control entry).card other =
      if other = self then (roster.card other).map fun card => (card.1, some entry)
      else roster.card other := by
  unfold card
  rw [get?_register]
  split
  · rw [Option.map_map, Option.map_map]
    rfl
  · rfl

theorem card_detach (h : roster.WellFormed) (handle other : Handle) :
    (roster.detach handle).2.card other = if other = handle then none else roster.card other := by
  unfold card
  rw [get?_detach h]
  split <;> rfl

/-- An announcement changes nobody's address. -/
@[simp] theorem viewOf_register (roster : Roster) (self : Handle) (control : SocketV4)
    (entry : PeerEntry) (other : Handle) :
    (roster.register self control entry).viewOf other = roster.viewOf other := by
  rw [viewOf_eq_card, viewOf_eq_card, card_register]
  split
  · rw [Option.bind_map]
    rfl
  · rfl

theorem entryOf_register {control : SocketV4} (hview : roster.viewOf handle = some control)
    (entry : PeerEntry) (other : Handle) :
    (roster.register handle control entry).entryOf other =
      if other = handle then some entry else roster.entryOf other := by
  obtain ⟨member, hget, -⟩ := viewOf_eq_some.1 hview
  rw [entryOf_eq_card, entryOf_eq_card, card_register]
  split
  next hsame => simp [hsame, card, hget]
  next => rfl

/-! ### The order of attaching -/

theorem order_enroll (h : roster.WellFormed) (stream : FramedStream) (addr : SocketAddr)
    (timer : Timer) :
    (roster.enroll stream addr timer).val.2.order =
      roster.order ++ [(roster.enroll stream addr timer).val.1] :=
  h.members.keys_insert _

theorem order_post (h : roster.WellFormed) (handle : Handle) (msg : Message) :
    (roster.post handle msg).order = roster.order := by
  cases hget : roster.get? handle with
  | none => rw [post_of_absent hget]
  | some member =>
      rw [post_of_get? hget]
      exact h.members.keys_modify _ _

theorem order_postAll (h : roster.WellFormed) (mail : List (Handle × Message)) :
    (roster.postAll mail).order = roster.order := by
  induction mail generalizing roster with
  | nil => rfl
  | cons item mail ih =>
      exact (ih (h.post item.1 item.2)).trans (order_post h item.1 item.2)

theorem order_register (h : roster.WellFormed) (self : Handle) (control : SocketV4)
    (entry : PeerEntry) : (roster.register self control entry).order = roster.order :=
  h.members.keys_modify self _

theorem order_introduce (h : roster.WellFormed) (handle : Handle) (entry : PeerEntry) :
    (roster.introduce handle entry).val.2.order = roster.order := by
  cases hview : roster.viewOf handle with
  | none => rw [introduce_of_viewOf_none hview]
  | some control =>
      rw [introduce_of_viewOf hview, order_postAll (h.register handle control entry),
        order_register h]

theorem order_takeNext (h : roster.WellFormed) (handle : Handle) :
    (roster.takeNext handle).2.order = roster.order := by
  rcases takeNext_cases roster handle with ⟨-, htake⟩ | ⟨member, slot, rest, -, -, htake⟩
  · rw [htake]
  · rw [htake]
    exact h.members.keys_modify _ _

theorem order_detach (h : roster.WellFormed) (handle : Handle) :
    (roster.detach handle).2.order = roster.order.filter fun other => other ≠ handle := by
  have hmembers : (roster.detach handle).2.members = (roster.members.remove handle).2 := by
    cases hget : roster.get? handle with
    | none => rw [detach_of_absent hget, Slab.remove_of_get?_eq_none hget]
    | some member => exact (detach_of_get? hget).2.1
  rw [order, hmembers]
  exact h.members.keys_remove handle

/-! ### Held addresses -/

/-- Who leaves gives their address up if it is theirs. -/
theorem addresses_detach (roster : Roster) (handle : Handle) :
    (roster.detach handle).2.addresses =
      match roster.viewOf handle with
      | some key =>
        if roster.addresses.get? key = some handle then (roster.addresses.remove key).2
        else roster.addresses
      | none => roster.addresses := by
  cases hget : roster.get? handle with
  | none => simp [detach_of_absent hget, viewOf, hget]
  | some member =>
      have hremoved : (roster.members.remove handle).1 = some member := by
        rw [Slab.fst_remove]
        exact hget
      rw [viewOf_of_get? hget]
      unfold detach
      split
      next heq => rw [heq] at hremoved; cases hremoved
      next heq =>
        rw [heq] at hremoved
        cases hremoved
        rfl

/-- The bindings of addresses are those of the `holders`, each of whom has announced
something. -/
structure Held (roster : Roster) (holders : List Handle) : Prop where
  addresses : roster.addresses.WellFormed
  bound : ∀ key owner, roster.addresses.get? key = some owner ↔
    owner ∈ holders ∧ roster.viewOf owner = some key
  entry : ∀ holder ∈ holders, ∃ key entry,
    roster.viewOf holder = some key ∧ roster.entryOf holder = some entry
  nodup : holders.Nodup
  size : roster.registeredCount = holders.length

theorem held_empty : Held empty [] where
  addresses := AddressMap.wellFormed_empty
  bound := by simp [empty]
  entry := by simp
  nodup := List.nodup_nil
  size := rfl

namespace Held

/-- A member is registered when it holds its address. -/
theorem isRegistered_iff (h : Held roster holders) :
    roster.isRegistered handle = true ↔ handle ∈ holders := by
  rw [Roster.isRegistered_iff]
  constructor
  · rintro ⟨key, -, hbound⟩
    exact ((h.bound key handle).1 hbound).1
  · intro hmem
    obtain ⟨key, -, hview, -⟩ := h.entry handle hmem
    exact ⟨key, hview, (h.bound key handle).2 ⟨hmem, hview⟩⟩

theorem get?_of_mem (h : Held roster holders) (hmem : handle ∈ holders) :
    ∃ member, roster.get? handle = some member := by
  obtain ⟨key, -, hview, -⟩ := h.entry handle hmem
  obtain ⟨member, hget, -⟩ := viewOf_eq_some.1 hview
  exact ⟨member, hget⟩

/-- Two holders have different addresses. -/
theorem eq_of_viewOf_eq (h : Held roster holders) (hmem : handle ∈ holders)
    (hother : other ∈ holders) (hview : roster.viewOf handle = roster.viewOf other) :
    handle = other := by
  obtain ⟨key, -, hkey, -⟩ := h.entry handle hmem
  have hbound := (h.bound key handle).2 ⟨hmem, hkey⟩
  rw [(h.bound key other).2 ⟨hother, hview ▸ hkey⟩] at hbound
  exact (Option.some.inj hbound).symm

/-- A key is unbound when no holder has it. -/
theorem get?_eq_none_iff (h : Held roster holders) (key : SocketV4) :
    roster.addresses.get? key = none ↔ ∀ holder ∈ holders, roster.viewOf holder ≠ some key := by
  rw [Option.eq_none_iff_forall_ne_some]
  constructor
  · intro hnone holder hmem hview
    exact hnone holder ((h.bound key holder).2 ⟨hmem, hview⟩)
  · intro hall holder hbound
    obtain ⟨hmem, hview⟩ := (h.bound key holder).1 hbound
    exact hall holder hmem hview

/-- Nothing matters but the bindings and what is seen of the holders. -/
theorem congr (h : Held roster holders) {roster' : Roster}
    (haddresses : roster'.addresses = roster.addresses)
    (hcard : ∀ holder ∈ holders, roster'.card holder = roster.card holder) :
    Held roster' holders where
  addresses := haddresses ▸ h.addresses
  bound := by
    intro key owner
    rw [haddresses, h.bound]
    refine and_congr_right fun hmem => ?_
    rw [viewOf_congr (hcard owner hmem)]
  entry := by
    intro holder hmem
    rw [viewOf_congr (hcard holder hmem), entryOf_congr (hcard holder hmem)]
    exact h.entry holder hmem
  nodup := h.nodup
  size := by rw [registeredCount, haddresses, ← registeredCount, h.size]

theorem enroll (h : Held roster holders) (hwf : roster.WellFormed) (stream : FramedStream)
    (addr : SocketAddr) (timer : Timer) :
    Held (roster.enroll stream addr timer).val.2 holders := by
  refine h.congr rfl fun holder hmem => ?_
  rw [card_enroll hwf, if_neg]
  rintro rfl
  obtain ⟨member, hget⟩ := h.get?_of_mem hmem
  rw [get?_fst_enroll hwf] at hget
  cases hget

theorem post (h : Held roster holders) (handle : Handle) (msg : Message) :
    Held (roster.post handle msg) holders :=
  h.congr (addresses_post roster handle msg) fun holder _ => card_post roster handle msg holder

theorem postAll (h : Held roster holders) (mail : List (Handle × Message)) :
    Held (roster.postAll mail) holders :=
  h.congr (addresses_postAll roster mail) fun holder _ => card_postAll roster mail holder

theorem takeNext (h : Held roster holders) (handle : Handle) :
    Held (roster.takeNext handle).2 holders :=
  h.congr (addresses_takeNext roster handle) fun holder _ => card_takeNext roster handle holder

end Held

/-- Who holds addresses once a member has announced something: it holds its own from then
on, unless another member does already. -/
def holdersAfter (roster : Roster) (holders : List Handle) (handle : Handle) : List Handle :=
  if (roster.viewOf handle).isSome ∧
      ∀ holder ∈ holders, roster.viewOf holder ≠ roster.viewOf handle then
    holders ++ [handle]
  else holders

theorem holdersAfter_of_viewOf_none (hview : roster.viewOf handle = none) :
    roster.holdersAfter holders handle = holders := by
  simp [holdersAfter, hview]

theorem Held.holdersAfter_eq (h : Held roster holders) {control : SocketV4}
    (hview : roster.viewOf handle = some control) :
    roster.holdersAfter holders handle =
      if roster.addresses.get? control = none then holders ++ [handle] else holders := by
  simp only [holdersAfter, hview, Option.isSome_some, true_and, h.get?_eq_none_iff]

namespace Held

theorem mem_holdersAfter (h : Held roster holders) {control : SocketV4}
    (hview : roster.viewOf handle = some control) :
    other ∈ roster.holdersAfter holders handle ↔
      other ∈ holders ∨ other = handle ∧ roster.addresses.get? control = none := by
  rw [h.holdersAfter_eq hview]
  split <;> simp_all

theorem register (h : Held roster holders) {control : SocketV4}
    (hview : roster.viewOf handle = some control) (entry : PeerEntry) :
    Held (roster.register handle control entry) (roster.holdersAfter holders handle) where
  addresses := h.addresses.insert control handle
  bound := by
    intro key owner
    have hinsert : (roster.register handle control entry).addresses.get? key =
        if key = control ∧ roster.addresses.get? control = none then some handle
        else roster.addresses.get? key := h.addresses.get?_insert control handle key
    rw [hinsert, viewOf_register, h.mem_holdersAfter hview]
    split
    next hnew =>
      obtain ⟨rfl, hunbound⟩ := hnew
      have hnone := (h.get?_eq_none_iff key).1 hunbound
      constructor
      · intro howner
        obtain rfl := Option.some.inj howner
        exact ⟨.inr ⟨rfl, hunbound⟩, hview⟩
      · rintro ⟨hmem | ⟨rfl, -⟩, hkey⟩
        · exact absurd hkey (hnone owner hmem)
        · rfl
    next hold =>
      rw [h.bound]
      refine and_congr_left fun hkey => ⟨.inl, ?_⟩
      rintro (hmem | ⟨rfl, hunbound⟩)
      · exact hmem
      · exact absurd ⟨Option.some.inj (hkey.symm.trans hview), hunbound⟩ hold
  entry := by
    intro holder hmem
    rw [viewOf_register, entryOf_register hview]
    rcases (h.mem_holdersAfter hview).1 hmem with hmem | ⟨rfl, -⟩
    · obtain ⟨key, told, hkey, htold⟩ := h.entry holder hmem
      refine ⟨key, ?_⟩
      split
      · exact ⟨entry, hkey, rfl⟩
      · exact ⟨told, hkey, htold⟩
    · exact ⟨control, entry, hview, if_pos rfl⟩
  nodup := by
    rw [h.holdersAfter_eq hview]
    split
    next hunbound =>
      refine List.nodup_append.2 ⟨h.nodup, List.pairwise_singleton .., ?_⟩
      rintro holder hmem _ hself rfl
      obtain rfl := List.mem_singleton.1 hself
      exact (h.get?_eq_none_iff control).1 hunbound _ hmem hview
    next => exact h.nodup
  size := by
    have hsize : (roster.register handle control entry).registeredCount =
        roster.registeredCount + if roster.addresses.get? control = none then 1 else 0 :=
      AddressMap.size_insert roster.addresses control handle
    rw [hsize, h.size, h.holdersAfter_eq hview]
    split <;> simp

theorem introduce (h : Held roster holders) (handle : Handle) (entry : PeerEntry) :
    Held (roster.introduce handle entry).val.2 (roster.holdersAfter holders handle) := by
  cases hview : roster.viewOf handle with
  | none => rwa [introduce_of_viewOf_none hview, holdersAfter_of_viewOf_none hview]
  | some control =>
      rw [introduce_of_viewOf hview]
      exact (h.register hview entry).postAll _

theorem detach (h : Held roster holders) (hwf : roster.WellFormed) (handle : Handle) :
    Held (roster.detach handle).2 (holders.filter fun holder => holder ≠ handle) := by
  have hcard : ∀ holder ≠ handle, (roster.detach handle).2.card holder = roster.card holder :=
    fun holder hne => by rw [card_detach hwf, if_neg hne]
  by_cases hmem : handle ∈ holders
  · obtain ⟨key, -, hview, -⟩ := h.entry handle hmem
    have hown := (h.bound key handle).2 ⟨hmem, hview⟩
    have haddresses : (roster.detach handle).2.addresses = (roster.addresses.remove key).2 := by
      simp only [addresses_detach, hview, hown, if_true]
    refine ⟨haddresses ▸ h.addresses.remove key, ?_, ?_, h.nodup.filter _, ?_⟩
    · intro other owner
      rw [haddresses, h.addresses.get?_remove, List.mem_filter, decide_eq_true_eq]
      split
      next hsame =>
        subst hsame
        refine ⟨nofun, ?_⟩
        rintro ⟨⟨hheld, hne⟩, hsame⟩
        rw [viewOf_congr (hcard owner hne)] at hsame
        exact absurd (h.eq_of_viewOf_eq hheld hmem (hsame.trans hview.symm)) hne
      next hother =>
        rw [h.bound, and_assoc]
        refine and_congr_right fun hheld => ?_
        constructor
        · intro hview'
          have hne : owner ≠ handle := by
            rintro rfl
            exact hother (Option.some.inj (hview'.symm.trans hview))
          rw [viewOf_congr (hcard owner hne)]
          exact ⟨hne, hview'⟩
        · rintro ⟨hne, hview'⟩
          rwa [viewOf_congr (hcard owner hne)] at hview'
    · intro holder hheld
      obtain ⟨hheld, hne⟩ := List.mem_filter.1 hheld
      have hsame := hcard holder (of_decide_eq_true hne)
      rw [viewOf_congr hsame, entryOf_congr hsame]
      exact h.entry holder hheld
    · have herase : (holders.filter fun holder => holder ≠ handle) = holders.erase handle := by
        rw [h.nodup.erase_eq_filter]
        refine List.filter_congr fun holder _ => ?_
        by_cases hsame : holder = handle <;> simp [hsame]
      rw [registeredCount, haddresses, h.addresses.size_remove hown, ← registeredCount, h.size,
        herase, List.length_erase_of_mem hmem]
  · -- Whoever leaves without an address leaves the bindings alone.
    have hfilter : (holders.filter fun holder => holder ≠ handle) = holders := by
      rw [List.filter_eq_self]
      intro holder hheld
      exact decide_eq_true fun heq => hmem (heq ▸ hheld)
    rw [hfilter]
    refine h.congr ?_ fun holder hheld => hcard holder fun heq => hmem (heq ▸ hheld)
    rw [addresses_detach]
    split
    next key _ =>
      rw [if_neg]
      exact fun hown => hmem ((h.bound key handle).1 hown).1
    next => rfl

end Held

end Roster
end Rendezvous
