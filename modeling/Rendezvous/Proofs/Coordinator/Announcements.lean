import Rendezvous.Proofs.Coordinator.AddressChains
import Rendezvous.Proofs.Coordinator.Queues

/-!
# Rendezvous.Proofs.Coordinator.Announcements

**A roster remembers who has announced what.** As long as the members' addresses have
different IPv4 views and nobody leaves, a roster is `Faithful` to the announcements
made so far: whoever has announced an entry has it, owns the address, and is one of the
others in the eyes of everybody else (`Faithful.mem_others`). So a new announcement goes
to exactly those who have announced before, and its maker is told of exactly them
(`Faithful.pending_introduce`).
-/

namespace Rendezvous
namespace Roster

variable {roster : Roster} {handle other : Handle} {member : Member}
  {made : List (Handle × PeerEntry)}

/-- The roster knows the announcements that have been made, and nothing else. -/
structure Faithful (roster : Roster) (made : List (Handle × PeerEntry)) : Prop where
  wellFormed : roster.WellFormed
  addresses : roster.addresses.WellFormed
  view : ∀ {handle member}, roster.get? handle = some member →
    ∃ key, member.addr.ipv4View = some key
  apart : ∀ {handle other member member'}, roster.get? handle = some member →
    roster.get? other = some member' → member.addr.ipv4View = member'.addr.ipv4View →
      handle = other
  attached : ∀ {handle entry}, (handle, entry) ∈ made → ∃ member, roster.get? handle = some member
  entry : ∀ {handle member}, roster.get? handle = some member →
    ∀ entry, member.entry = some entry ↔ (handle, entry) ∈ made
  bound : ∀ {key owner}, roster.addresses.get? key = some owner →
    ∃ member, roster.get? owner = some member ∧ member.addr.ipv4View = some key ∧
      member.entry.isSome = true
  registered : ∀ {handle member key}, roster.get? handle = some member →
    member.addr.ipv4View = some key → member.entry.isSome = true →
      roster.addresses.get? key = some handle

namespace Faithful

theorem empty : Faithful Roster.empty [] where
  wellFormed := wellFormed_empty
  addresses := AddressMap.wellFormed_empty
  view := fun hget => by cases hget
  apart := fun hget => by cases hget
  attached := by simp
  entry := fun hget => by cases hget
  bound := by
    intro key owner hget
    simp [Roster.empty] at hget
  registered := fun hget => by cases hget

/-- Whoever has announced something owns its address. -/
theorem ownsAddress_iff (h : Faithful roster made) (hget : roster.get? handle = some member) :
    roster.ownsAddress handle member = true ↔ member.entry.isSome = true := by
  obtain ⟨key, hkey⟩ := h.view hget
  simp only [ownsAddress, hkey, beq_iff_eq]
  constructor
  · intro howner
    obtain ⟨member', hget', -, hentry⟩ := h.bound howner
    rw [hget] at hget'
    cases hget'
    exact hentry
  · exact h.registered hget hkey

/-- The others are those who have announced something. -/
theorem mem_others (h : Faithful roster made) {self : Handle} {entry : PeerEntry} :
    (other, entry) ∈ roster.others self ↔ other ≠ self ∧ (other, entry) ∈ made := by
  rw [h.wellFormed.mem_others]
  refine and_congr_right fun _ => ?_
  constructor
  · rintro ⟨member, hget, -, hentry⟩
    exact (h.entry hget entry).1 hentry
  · intro hmade
    obtain ⟨member, hget⟩ := h.attached hmade
    have hentry := (h.entry hget entry).2 hmade
    exact ⟨member, hget, (h.ownsAddress_iff hget).2 (by simp [hentry]), hentry⟩

/-- Nothing matters but addresses and entries. -/
theorem congr (h : Faithful roster made) {roster' : Roster} (hwf : roster'.WellFormed)
    (haddresses : roster'.addresses = roster.addresses)
    (hget : ∀ handle, (roster'.get? handle).map (fun member => (member.addr, member.entry)) =
      (roster.get? handle).map fun member => (member.addr, member.entry)) :
    Faithful roster' made := by
  have hbefore : ∀ {handle member'}, roster'.get? handle = some member' →
      ∃ member, roster.get? handle = some member ∧ member'.addr = member.addr ∧
        member'.entry = member.entry := by
    intro handle member' hafter
    have hcard := hget handle
    rw [hafter, eq_comm, Option.map_some, Option.map_eq_some_iff] at hcard
    obtain ⟨member, hmember, heq⟩ := hcard
    exact ⟨member, hmember, (congrArg Prod.fst heq).symm, (congrArg Prod.snd heq).symm⟩
  have hafter : ∀ {handle member}, roster.get? handle = some member →
      ∃ member', roster'.get? handle = some member' ∧ member'.addr = member.addr ∧
        member'.entry = member.entry := by
    intro handle member hbefore
    have hcard := hget handle
    rw [hbefore, Option.map_some, Option.map_eq_some_iff] at hcard
    obtain ⟨member', hmember, heq⟩ := hcard
    exact ⟨member', hmember, congrArg Prod.fst heq, congrArg Prod.snd heq⟩
  refine ⟨hwf, haddresses ▸ h.addresses, ?_, ?_, ?_, ?_, ?_, ?_⟩
  · intro handle member' hget'
    obtain ⟨member, hmember, haddr, -⟩ := hbefore hget'
    rw [haddr]
    exact h.view hmember
  · intro handle other member' member'' hget' hget'' hview
    obtain ⟨member, hmember, haddr, -⟩ := hbefore hget'
    obtain ⟨before, hbefore, haddr', -⟩ := hbefore hget''
    rw [haddr, haddr'] at hview
    exact h.apart hmember hbefore hview
  · intro handle entry hmade
    obtain ⟨member, hmember⟩ := h.attached hmade
    obtain ⟨member', hmember', -⟩ := hafter hmember
    exact ⟨member', hmember'⟩
  · intro handle member' hget' entry
    obtain ⟨member, hmember, -, hentry⟩ := hbefore hget'
    rw [hentry]
    exact h.entry hmember entry
  · intro key owner howner
    rw [haddresses] at howner
    obtain ⟨member, hmember, hview, hentry⟩ := h.bound howner
    obtain ⟨member', hmember', haddr, hentry'⟩ := hafter hmember
    exact ⟨member', hmember', haddr ▸ hview, hentry' ▸ hentry⟩
  · intro handle member' key hget' hview hentry
    obtain ⟨member, hmember, haddr, hentry'⟩ := hbefore hget'
    rw [haddresses]
    exact h.registered hmember (haddr ▸ hview) (hentry' ▸ hentry)

theorem takeNext (h : Faithful roster made) (handle : Handle) :
    Faithful (roster.takeNext handle).2 made := by
  refine h.congr (h.wellFormed.takeNext handle) (roster.addresses_takeNext handle) ?_
  intro other
  rw [get?_takeNext]
  split
  · rw [Option.map_map]
    rfl
  · rfl

theorem postAll (h : Faithful roster made) (mail : List (Handle × Message)) :
    Faithful (roster.postAll mail) made := by
  refine h.congr (h.wellFormed.postAll mail) (roster.addresses_postAll mail) ?_
  intro other
  obtain ⟨slots, hslots⟩ := roster.get?_postAll mail other
  rw [hslots, Option.map_map]
  rfl

/-- Somebody is attached whose address has another view than everybody else's. -/
theorem enroll (h : Faithful roster made) (stream : FramedStream) {addr : SocketAddr}
    {key : SocketV4} (hview : addr.ipv4View = some key)
    (hother : ∀ {handle member}, roster.get? handle = some member →
      member.addr.ipv4View ≠ some key) (timer : Timer) :
    Faithful (roster.enroll stream addr timer).val.2 made := by
  refine ⟨h.wellFormed.enroll stream addr timer, h.addresses, ?_, ?_, ?_, ?_, ?_, ?_⟩
  · intro handle member' hget'
    rcases get?_of_enroll h.wellFormed hget' with ⟨-, rfl⟩ | ⟨-, hmember⟩
    · exact ⟨key, hview⟩
    · exact h.view hmember
  · intro handle other member' member'' hget' hget'' hsame
    rcases get?_of_enroll h.wellFormed hget' with ⟨rfl, rfl⟩ | ⟨-, hmember⟩
    · rcases get?_of_enroll h.wellFormed hget'' with ⟨rfl, -⟩ | ⟨-, hmember'⟩
      · rfl
      · exact absurd (hsame.symm.trans hview) (hother hmember')
    · rcases get?_of_enroll h.wellFormed hget'' with ⟨rfl, rfl⟩ | ⟨-, hmember'⟩
      · exact absurd (hsame.trans hview) (hother hmember)
      · exact h.apart hmember hmember' hsame
  · intro handle entry hmade
    obtain ⟨member, hmember⟩ := h.attached hmade
    exact ⟨member, get?_enroll_of_get? h.wellFormed hmember stream addr timer⟩
  · intro handle member' hget' entry
    rcases get?_of_enroll h.wellFormed hget' with ⟨rfl, rfl⟩ | ⟨-, hmember⟩
    · refine ⟨fun hentry => (by cases hentry), ?_⟩
      intro hmade
      obtain ⟨member, hmember⟩ := h.attached hmade
      rw [get?_fst_enroll h.wellFormed] at hmember
      cases hmember
    · exact h.entry hmember entry
  · intro key owner howner
    obtain ⟨member, hmember, hrest⟩ := h.bound howner
    exact ⟨member, get?_enroll_of_get? h.wellFormed hmember stream addr timer, hrest⟩
  · intro handle member' key hget' hview' hentry
    rcases get?_of_enroll h.wellFormed hget' with ⟨-, rfl⟩ | ⟨-, hmember⟩
    · cases hentry
    · exact h.registered hmember hview' hentry

/-! ### A first announcement -/

section

variable (h : Faithful roster made) (hget : roster.get? handle = some member)
  (hfirst : member.entry = none) {key : SocketV4} (hview : member.addr.ipv4View = some key)

include h hget hfirst hview

/-- The address of somebody who has not announced anything is not bound. -/
theorem unbound : roster.addresses.get? key = none := by
  cases howner : roster.addresses.get? key with
  | none => rfl
  | some owner =>
      obtain ⟨member', hmember', hview', hentry⟩ := h.bound howner
      obtain rfl := h.apart hget hmember' (hview.trans hview'.symm)
      rw [hget] at hmember'
      cases hmember'
      simp [hfirst] at hentry

/-- The first announcement binds it. -/
theorem addresses_register (entry : PeerEntry) (other : SocketV4) :
    (roster.register handle key entry).addresses.get? other =
      if other = key then some handle else roster.addresses.get? other := by
  have hinsert := h.addresses.get?_insert key handle other
  simp only [h.unbound hget hfirst hview, and_true] at hinsert
  exact hinsert

/-- Whoever is bound after a first announcement is attached and has announced something. -/
theorem bound_register (entry : PeerEntry) {bound : SocketV4} {owner : Handle}
    (howner : (roster.register handle key entry).addresses.get? bound = some owner) :
    ∃ member', (roster.register handle key entry).get? owner = some member' ∧
      member'.addr.ipv4View = some bound ∧ member'.entry.isSome = true := by
  rw [h.addresses_register hget hfirst hview] at howner
  split at howner
  next hsame =>
    cases howner
    refine ⟨{ member with entry := some entry }, ?_, hview.trans (congrArg some hsame.symm), rfl⟩
    rw [get?_register, if_pos rfl, hget, Option.map_some]
  next hne =>
    obtain ⟨member', hmember', hview', hentry⟩ := h.bound howner
    refine ⟨member', ?_, hview', hentry⟩
    -- Whoever was bound had announced something, which the maker had not.
    rw [get?_register, if_neg]
    · exact hmember'
    · rintro rfl
      rw [hget] at hmember'
      cases hmember'
      simp [hfirst] at hentry

/-- Whoever has announced something after a first announcement is bound. -/
theorem registered_register (entry : PeerEntry) {member' : Member} {bound : SocketV4}
    (hget' : (roster.register handle key entry).get? other = some member')
    (hview' : member'.addr.ipv4View = some bound) (hentry : member'.entry.isSome = true) :
    (roster.register handle key entry).addresses.get? bound = some other := by
  rw [h.addresses_register hget hfirst hview]
  rcases get?_of_register hget hget' with ⟨rfl, rfl⟩ | ⟨hne, hmember⟩
  · have hkey : bound = key := Option.some.inj (hview'.symm.trans hview)
    rw [if_pos hkey]
  · -- Somebody else's address has another view, so its binding is the old one.
    rw [if_neg]
    · exact h.registered hmember hview' hentry
    · rintro rfl
      exact hne (h.apart hmember hget (hview'.trans hview.symm))

/-- A first announcement is registered. -/
theorem register (entry : PeerEntry) :
    Faithful (roster.register handle key entry) (made ++ [(handle, entry)]) := by
  refine ⟨h.wellFormed.register handle key entry, h.addresses.insert key handle, ?_, ?_, ?_, ?_,
    h.bound_register hget hfirst hview entry, h.registered_register hget hfirst hview entry⟩
  · intro other member' hget'
    rcases get?_of_register hget hget' with ⟨-, rfl⟩ | ⟨-, hmember⟩
    · exact ⟨key, hview⟩
    · exact h.view hmember
  · intro first second member' member'' hget' hget'' hsame
    rcases get?_of_register hget hget' with ⟨rfl, rfl⟩ | ⟨hne, hmember⟩
    · rcases get?_of_register hget hget'' with ⟨rfl, -⟩ | ⟨hne', hmember'⟩
      · rfl
      · exact absurd (h.apart hget hmember' hsame).symm hne'
    · rcases get?_of_register hget hget'' with ⟨rfl, rfl⟩ | ⟨-, hmember'⟩
      · exact absurd (h.apart hmember hget hsame) hne
      · exact h.apart hmember hmember' hsame
  · intro other made' hmade
    rw [get?_register]
    split
    next hsame => exact ⟨_, hsame ▸ congrArg _ hget⟩
    next hne =>
      rcases List.mem_append.1 hmade with hmade | hmade
      · exact h.attached hmade
      · exact absurd (congrArg Prod.fst (List.mem_singleton.1 hmade)) hne
  · intro other member' hget' entry'
    rw [List.mem_append, List.mem_singleton, Prod.mk.injEq]
    rcases get?_of_register hget hget' with ⟨rfl, rfl⟩ | ⟨hne, hmember⟩
    · have hnew : (other, entry') ∉ made := fun hmade => by
        rw [← h.entry hget, hfirst] at hmade
        cases hmade
      simp [hnew, eq_comm]
    · simp [h.entry hmember, hne]

/-- In the eyes of the one who has just announced, the others are those who had announced
something before. -/
theorem mem_others_register (entry : PeerEntry) {told : PeerEntry} :
    (other, told) ∈ (roster.register handle key entry).others handle ↔
      other ≠ handle ∧ (other, told) ∈ made := by
  rw [(h.register hget hfirst hview entry).mem_others]
  refine and_congr_right ?_
  intro hne
  simp [hne]

/-- The maker of a first announcement is told of those who had announced something before. -/
theorem mem_pages_register (entry : PeerEntry) {told : PeerEntry} :
    (∃ list ∈ pages (((roster.register handle key entry).others handle).map (·.2)), told ∈ list) ↔
      ∃ third, third ≠ handle ∧ (third, told) ∈ made := by
  rw [← List.mem_flatten, flatten_pages, List.mem_map]
  constructor
  · rintro ⟨⟨third, told⟩, hthird, rfl⟩
    exact ⟨third, (h.mem_others_register hget hfirst hview entry).1 hthird⟩
  · rintro ⟨third, hthird⟩
    exact ⟨(third, told), (h.mem_others_register hget hfirst hview entry).2 hthird, rfl⟩

/-- Somebody else is told of it who had announced something before. -/
theorem mem_others_filter_register (entry : PeerEntry) (hne : other ≠ handle) :
    (∃ third, third ∈ ((roster.register handle key entry).others handle).filter fun third =>
      third.1 = other) ↔ ∃ own, (other, own) ∈ made := by
  constructor
  · rintro ⟨⟨third, own⟩, hthird⟩
    obtain ⟨hamong, heq⟩ := List.mem_filter.1 hthird
    obtain rfl : third = other := of_decide_eq_true heq
    exact ⟨own, ((h.mem_others_register hget hfirst hview entry).1 hamong).2⟩
  · rintro ⟨own, hown⟩
    have hamong := (h.mem_others_register hget hfirst hview entry).2 ⟨hne, hown⟩
    exact ⟨(other, own), List.mem_filter.2 ⟨hamong, decide_eq_true rfl⟩⟩

end

theorem introduce (h : Faithful roster made) (hget : roster.get? handle = some member)
    (hfirst : member.entry = none) (entry : PeerEntry) :
    Faithful (roster.introduce handle entry).val.2 (made ++ [(handle, entry)]) := by
  obtain ⟨key, hview⟩ := h.view hget
  rw [val_introduce hget hview]
  exact (h.register hget hfirst hview entry).postAll _

/-- A first announcement lengthens queues by peer lists that fit a frame. Its maker is told
of those who had announced something before, and each of them of it. -/
theorem pending_introduce (h : Faithful roster made) (hget : roster.get? handle = some member)
    (hfirst : member.entry = none) (entry : PeerEntry) (other : Handle) :
    ∃ lists : List (List PeerEntry),
      (roster.introduce handle entry).val.2.pending other =
        roster.pending other ++ lists.map Message.peersToConnect ∧
      (∀ list ∈ lists, list.length ≤ maxListLength) ∧
      (other ≠ handle → ∀ list ∈ lists, list = [entry]) ∧
      ∀ told, (∃ list ∈ lists, told ∈ list) ↔
        if other = handle then ∃ third, third ≠ handle ∧ (third, told) ∈ made
        else told = entry ∧ ∃ own, (other, own) ∈ made := by
  obtain ⟨key, hview⟩ := h.view hget
  have hregistered := h.register hget hfirst hview entry
  have hmade : (handle, entry) ∈ made ++ [(handle, entry)] := by simp
  obtain ⟨member', hself⟩ := hregistered.attached hmade
  rw [val_introduce hget hview]
  simp only
  rw [pending_postAll hregistered.wellFormed
    (hregistered.wellFormed.attached_of_mem_announcements hself entry), pending_register]
  by_cases hsame : other = handle
  · subst hsame
    refine ⟨pages (((roster.register other key entry).others other).map (·.2)), ?_,
      length_le_of_mem_pages _, fun hne => absurd rfl hne, fun told => ?_⟩
    · rw [announcements_self fun third hthird =>
        ((h.mem_others_register hget hfirst hview entry).1 hthird).1]
    · rw [if_pos rfl]
      exact h.mem_pages_register hget hfirst hview entry
  · rw [announcements_other hsame]
    have hfilter := h.mem_others_filter_register hget hfirst hview entry hsame
    generalize ((roster.register handle key entry).others handle).filter
      (fun third => third.1 = other) = mine at hfilter ⊢
    refine ⟨mine.map fun _ => [entry], by simp, ?_, ?_, fun told => ?_⟩
    · intro list hlist
      obtain ⟨-, -, rfl⟩ := List.mem_map.1 hlist
      simp [maxListLength_eq]
    · intro _ list hlist
      obtain ⟨-, -, rfl⟩ := List.mem_map.1 hlist
      rfl
    · rw [if_neg hsame, ← hfilter]
      constructor
      · rintro ⟨list, hlist, htold⟩
        obtain ⟨third, hthird, rfl⟩ := List.mem_map.1 hlist
        exact ⟨List.mem_singleton.1 htold, third, hthird⟩
      · rintro ⟨rfl, third, hthird⟩
        exact ⟨[told], List.mem_map.2 ⟨third, hthird, rfl⟩, List.mem_singleton_self _⟩

end Faithful
end Roster
end Rendezvous
