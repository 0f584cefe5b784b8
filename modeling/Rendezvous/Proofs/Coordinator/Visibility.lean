import Rendezvous.Proofs.Coordinator.Chronicle
import Mathlib.Algebra.Order.Floor.Div

/-!
# Rendezvous.Proofs.Coordinator.Visibility

**Who learns what from an announcement.** Whoever announces is told of the members that
are registered under their addresses, in the order in which they were attached, and each
of those is told of the announcement; nothing else changes (`Spread`,
`spread_introduce`).

To be registered is not the same as to have announced something. An address belongs to the
first who announces from it, and two connections can have addresses with the same IPv4
view, so a member that has announced is seen by the others just when it holds its address
(`all_visible_iff`).
-/

namespace Rendezvous
namespace Roster

variable {roster : Roster} {handle other : Handle}

/-! ### Pages -/

/-- There is a page for each full list and one for the rest, and always one. -/
theorem length_pages (entries : List PeerEntry) :
    (pages entries).length = max 1 (entries.length ⌈/⌉ maxListLength) := by
  fun_induction pages entries with
  | case1 entries h =>
      rw [Nat.ceilDiv_eq_add_pred_div]
      simp only [maxListLength_eq, List.length_singleton] at *
      omega
  | case2 entries h ih =>
      rw [List.length_cons, ih, Nat.ceilDiv_eq_add_pred_div, Nat.ceilDiv_eq_add_pred_div,
        List.length_drop]
      simp only [maxListLength_eq] at *
      omega

theorem pages_ne_nil (entries : List PeerEntry) : pages entries ≠ [] := by
  rw [← List.length_pos_iff, length_pages]
  omega

/-- Only the last page is not full. -/
theorem length_of_mem_dropLast_pages (entries : List PeerEntry) :
    ∀ page ∈ (pages entries).dropLast, page.length = maxListLength := by
  fun_induction pages entries with
  | case1 entries h => simp
  | case2 entries h ih =>
      rw [List.dropLast_cons_of_ne_nil (pages_ne_nil _)]
      intro page hpage
      rcases List.mem_cons.1 hpage with rfl | hpage
      · rw [List.length_take]
        omega
      · exact ih page hpage

@[simp] theorem pages_nil : pages [] = [[]] := by
  rw [pages]
  simp

/-! ### The others -/

/-- The others come in the order of attaching. -/
theorem others_eq (h : roster.WellFormed) (self : Handle) :
    roster.others self =
      (roster.order.filter fun other => other ≠ self && roster.isRegistered other).filterMap
        fun other => (roster.entryOf other).map fun entry => (other, entry) := by
  unfold others order Slab.keys
  rw [List.filter_map, List.filterMap_map, List.filterMap_filter]
  refine List.filterMap_congr ?_
  rintro ⟨other, member⟩ hmem
  have hget : roster.get? other = some member := h.members.mem_toList.1 hmem
  simp [isRegistered, entryOf, hget]

/-- Each of some members with its entry. -/
theorem map_fst_entries {handles : List Handle}
    (hentry : ∀ handle ∈ handles, (roster.entryOf handle).isSome) :
    (handles.filterMap fun other =>
      (roster.entryOf other).map fun entry => (other, entry)).map Prod.fst = handles := by
  rw [List.map_filterMap]
  refine (List.filterMap_congr fun other hother => ?_).trans List.filterMap_some
  obtain ⟨entry, hentry⟩ := Option.isSome_iff_exists.1 (hentry other hother)
  simp [hentry]

theorem map_snd_entries {handles : List Handle}
    (hentry : ∀ handle ∈ handles, (roster.entryOf handle).isSome) :
    (handles.filterMap fun other =>
      (roster.entryOf other).map fun entry => (other, entry)).map (fun item => some item.2) =
        handles.map roster.entryOf := by
  rw [List.map_filterMap, ← List.filterMap_eq_map]
  refine List.filterMap_congr fun other hother => ?_
  obtain ⟨entry, hentry⟩ := Option.isSome_iff_exists.1 (hentry other hother)
  simp [hentry]

/-! ### What an announcement does -/

/-- What a member is told because of an announcement: its maker all lists, the others one
entry. -/
def news (self : Handle) (entry : PeerEntry) (told : List Handle)
    (lists : List (List PeerEntry)) (handle : Handle) : List Message :=
  if handle = self then lists.map .peersToConnect
  else if handle ∈ told then [.peersToConnect [entry]]
  else []

/-- A roster before and after an announcement of which the members `told` are told. -/
structure Spread (before : Roster) (maker : Handle) (control : SocketV4) (entry : PeerEntry)
    (told : List Handle) (lists : List (List PeerEntry)) (after : Roster) : Prop where
  /-- The lists are as few as possible, and there is one. -/
  length : lists.length = max 1 (told.length ⌈/⌉ maxListLength)
  full : ∀ list ∈ lists.dropLast, list.length = maxListLength
  alone : told = [] → lists = [[]]
  /-- The lists hold what those who are told have announced, in their order. -/
  entries : lists.flatten.map some = told.map before.entryOf
  /-- The address of the maker is bound to it unless it is bound. -/
  addresses : ∀ key, after.addresses.get? key =
    if key = control ∧ before.addresses.get? control = none then some maker
    else before.addresses.get? key
  order : after.order = before.order
  /-- The maker has a new entry, and queues grow at their ends; nothing else about a member
  changes. -/
  members : ∀ handle, ∃ slots : List Handle,
    slots.length = (news maker entry told lists handle).length ∧
      after.get? handle = (before.get? handle).map fun member =>
        { member with
          entry := if handle = maker then some entry else member.entry
          queue := member.queue ++ slots }
  pending : ∀ handle,
    after.pending handle = before.pending handle ++ news maker entry told lists handle

/-- Those who are told of an announcement: the other members that are registered. -/
def listeners (roster : Roster) (self : Handle) : List Handle :=
  roster.order.filter fun other => other ≠ self && roster.isRegistered other

theorem mem_listeners (h : roster.WellFormed) {holders : List Handle}
    (hheld : roster.Held holders) {self : Handle} :
    other ∈ roster.listeners self ↔ other ≠ self ∧ other ∈ holders := by
  rw [listeners, List.mem_filter, Bool.and_eq_true, decide_eq_true_eq, hheld.isRegistered_iff]
  constructor
  · rintro ⟨-, hne, hmem⟩
    exact ⟨hne, hmem⟩
  · rintro ⟨hne, hmem⟩
    exact ⟨h.members.mem_keys.2 (hheld.get?_of_mem hmem), hne, hmem⟩

section

variable (h : roster.WellFormed) {holders : List Handle} (hheld : roster.Held holders)
  {control : SocketV4} (hview : roster.viewOf handle = some control)

include h hheld

theorem isSome_entryOf_listeners (self : Handle) :
    ∀ other ∈ roster.listeners self, (roster.entryOf other).isSome := by
  intro other hother
  obtain ⟨-, hmem⟩ := (mem_listeners h hheld).1 hother
  obtain ⟨key, entry, -, hentry⟩ := hheld.entry other hmem
  simp [hentry]

include hview

/-- Registering an announcement does not change who is told of it. -/
theorem listeners_register (entry : PeerEntry) :
    (roster.register handle control entry).listeners handle = roster.listeners handle := by
  rw [listeners, order_register h]
  refine List.filter_congr fun other _ => ?_
  by_cases hsame : other = handle
  · simp [hsame]
  · have hregistered : (roster.register handle control entry).isRegistered other =
        roster.isRegistered other := by
      rw [Bool.eq_iff_iff, (hheld.register hview entry).isRegistered_iff,
        hheld.isRegistered_iff, hheld.mem_holdersAfter hview]
      simp [hsame]
    rw [hregistered]

theorem others_register (entry : PeerEntry) :
    (roster.register handle control entry).others handle =
      (roster.listeners handle).filterMap fun other =>
        (roster.entryOf other).map fun entry => (other, entry) := by
  rw [others_eq (h.register handle control entry)]
  change List.filterMap _ ((roster.register handle control entry).listeners handle) = _
  rw [listeners_register h hheld hview]
  refine List.filterMap_congr fun other hother => ?_
  rw [entryOf_register hview, if_neg ((mem_listeners h hheld).1 hother).1]

theorem length_others_register (entry : PeerEntry) :
    ((roster.register handle control entry).others handle).length =
      (roster.listeners handle).length := by
  rw [others_register h hheld hview, ← List.length_map Prod.fst,
    map_fst_entries (isSome_entryOf_listeners h hheld _)]

/-- An announcement is mailed as lists to its maker and once to everybody who is told. -/
theorem filter_mail (entry : PeerEntry) (other : Handle) :
    ((roster.mail handle entry).filter fun item => item.1 = other).map Prod.snd =
      news handle entry (roster.listeners handle)
        (pages (((roster.register handle control entry).others handle).map Prod.snd)) other := by
  have hothers := others_register h hheld hview entry
  have hfst := map_fst_entries (isSome_entryOf_listeners h hheld handle)
  rw [← hothers] at hfst
  rw [mail, hview, news]
  by_cases hsame : other = handle
  · rw [if_pos hsame, hsame]
    refine announcements_self (fun third hthird => ?_) entry
    have hmem : third.1 ∈ roster.listeners handle := hfst ▸ List.mem_map_of_mem hthird
    exact ((mem_listeners h hheld).1 hmem).1
  · rw [if_neg hsame]
    refine (announcements_other hsame entry _).trans ?_
    have hnodup : (roster.listeners handle).Nodup := h.members.nodup_keys.filter _
    have hlength : (((roster.register handle control entry).others handle).filter
        fun third => third.1 = other).length =
          if other ∈ roster.listeners handle then 1 else 0 := by
      rw [← hnodup.count, ← hfst, List.count, List.countP_map, List.countP_eq_length_filter]
      congr 1
    rw [List.map_const', hlength]
    split <;> rfl

theorem news_of_absent (entry : PeerEntry) (lists : List (List PeerEntry))
    (habsent : roster.get? other = none) :
    news handle entry (roster.listeners handle) lists other = [] := by
  rw [news, if_neg, if_neg]
  · intro hmem
    obtain ⟨member, hget⟩ := hheld.get?_of_mem ((mem_listeners h hheld).1 hmem).2
    rw [habsent] at hget
    cases hget
  · rintro rfl
    obtain ⟨member, hget, -⟩ := viewOf_eq_some.1 hview
    rw [habsent] at hget
    cases hget

/-- An announcement is answered, and spreads to all that are registered. -/
theorem spread_introduce (entry : PeerEntry) :
    (roster.introduce handle entry).val.1 = some (roster.listeners handle).length ∧
      ∃ lists, Spread roster handle control entry (roster.listeners handle) lists
        (roster.introduce handle entry).val.2 := by
  have hothers := others_register h hheld hview entry
  have hsome := isSome_entryOf_listeners h hheld handle
  have hlength := length_others_register h hheld hview entry
  have hpending := pending_introduce h handle entry
  simp only [filter_mail h hheld hview] at hpending
  generalize hlists : pages (((roster.register handle control entry).others handle).map Prod.snd) =
    lists at hpending
  refine ⟨by rw [introduce_of_viewOf hview, hlength], lists, ?_⟩
  refine ⟨?_, ?_, ?_, ?_, ?_, order_introduce h handle entry, ?_, hpending⟩
  · rw [← hlists, length_pages, List.length_map, hlength]
  · rw [← hlists]
    exact length_of_mem_dropLast_pages _
  · intro hnone
    rw [← hlists, hothers, hnone]
    simp
  · rw [← hlists, flatten_pages, List.map_map, hothers]
    exact map_snd_entries hsome
  · intro key
    rw [introduce_of_viewOf hview, addresses_postAll]
    exact hheld.addresses.get?_insert control handle key
  · intro other
    cases hget : roster.get? other with
    | none =>
        obtain ⟨entries, slots, hafter⟩ := get?_introduce roster handle entry other
        refine ⟨[], by simp [news_of_absent h hheld hview entry lists hget], ?_⟩
        rw [hafter, hget]
        rfl
    | some member =>
        obtain ⟨slots, hslots⟩ := get?_postAll (roster.register handle control entry)
          (roster.mail handle entry) other
        have hafter : (roster.introduce handle entry).val.2.get? other =
            some { member with
              entry := if other = handle then some entry else member.entry
              queue := member.queue ++ slots } := by
          rw [introduce_of_viewOf hview]
          refine hslots.trans ?_
          rw [get?_register, hget]
          split <;> rfl
        refine ⟨slots, ?_, hafter⟩
        -- The queue has grown by as many slots as the list by messages.
        have hgrown := congrArg List.length (hpending other)
        rw [List.length_append, (h.introduce handle entry).length_pending, h.length_pending,
          queueOf_of_get? hafter, queueOf_of_get? hget, List.length_append] at hgrown
        exact Nat.add_left_cancel hgrown

end

end Roster

namespace Chronicle

open Roster (Change)

/-! ### After any operations -/

/-- The attached members other than one that are registered under their addresses, in the
order of attaching. -/
def audience (c : Chronicle) (self : Handle) : List Handle :=
  c.attached.filter fun other => other ≠ self && c.roster.isRegistered other

theorem Sound.audience_eq {c : Chronicle} (h : Sound c) (self : Handle) :
    c.audience self = c.roster.listeners self := by
  rw [audience, Roster.listeners, h.order]

/-- After any operations, an announcement of somebody who is not attached or whose address
has no IPv4 view is ignored; any other spreads to the members that are registered. -/
theorem announcement_spreads (changes : List Change) (self : Handle) (entry : PeerEntry) :
    match (after changes).roster.viewOf self with
    | none => ((after changes).roster.introduce self entry).val = (none, (after changes).roster)
    | some control =>
      ((after changes).roster.introduce self entry).val.1 =
          some ((after changes).audience self).length ∧
        ∃ lists, Roster.Spread (after changes).roster self control entry
          ((after changes).audience self) lists
          ((after changes).roster.introduce self entry).val.2 := by
  have h := sound_after changes
  split
  next hview => exact Roster.introduce_of_viewOf_none hview entry
  next control hview =>
    rw [h.audience_eq]
    exact Roster.spread_introduce h.wellFormed h.held hview entry

/-! ### Who is seen -/

namespace Sound

variable {c : Chronicle} {handle : Handle}

theorem mem_announcers (h : Sound c) :
    handle ∈ c.announcers ↔ (c.announced handle).isSome = true := by
  rw [announcers, List.mem_filter, and_iff_right_iff_imp, h.announced, Roster.entryOf,
    Option.isSome_iff_exists]
  rintro ⟨entry, hentry⟩
  obtain ⟨member, hget, -⟩ := Option.bind_eq_some_iff.1 hentry
  exact h.mem_attached.2 ⟨member, hget⟩

theorem mem_announcers_of_mem_holders (h : Sound c) (hmem : handle ∈ c.holders) :
    handle ∈ c.announcers := by
  obtain ⟨key, entry, -, hentry⟩ := h.held.entry handle hmem
  rw [h.mem_announcers, h.announced, hentry]
  rfl

theorem nodup_announcers (h : Sound c) : c.announcers.Nodup := by
  have hnodup : c.attached.Nodup := h.order ▸ h.wellFormed.members.nodup_keys
  exact hnodup.filter _

/-- The count is right when everybody who has announced something holds their address. -/
theorem registeredCount_eq_iff (h : Sound c) :
    c.roster.registeredCount = c.announcers.length ↔
      ∀ handle ∈ c.announcers, handle ∈ c.holders := by
  rw [h.held.size]
  constructor
  · intro hlength
    have hsub : c.holders ⊆ c.announcers := fun _ => h.mem_announcers_of_mem_holders
    have hperm := (List.subperm_of_subset h.held.nodup hsub).perm_of_length_le hlength.ge
    exact fun handle hmem => hperm.mem_iff.2 hmem
  · intro hall
    have hperm := (List.perm_ext_iff_of_nodup h.held.nodup h.nodup_announcers).2 fun handle =>
      ⟨h.mem_announcers_of_mem_holders, hall handle⟩
    exact hperm.length_eq

/-- The audience of an announcement are those who have announced something and hold their
address. -/
theorem audience_eq_filter (h : Sound c) (self : Handle) :
    c.audience self =
      (c.announcers.filter fun other => other ≠ self).filter fun other => other ∈ c.holders := by
  rw [announcers, List.filter_filter, List.filter_filter, audience]
  refine List.filter_congr fun other _ => ?_
  have hregistered : c.roster.isRegistered other = decide (other ∈ c.holders) := by
    rw [Bool.eq_iff_iff, h.held.isRegistered_iff, decide_eq_true_eq]
  rw [hregistered]
  by_cases hmem : other ∈ c.holders
  · have hannounced := h.mem_announcers.1 (h.mem_announcers_of_mem_holders hmem)
    simp [hmem, hannounced]
  · simp [hmem]

/-- The audience is complete when every other member that has announced something holds its
address. -/
theorem map_audience_eq_iff (h : Sound c) (self : Handle) :
    (c.audience self).map c.roster.entryOf =
        (c.announcers.filter fun other => other ≠ self).map c.announced ↔
      ∀ other ∈ c.announcers, other ≠ self → other ∈ c.holders := by
  have hentries : c.announced = c.roster.entryOf := funext h.announced
  rw [hentries, h.audience_eq_filter]
  constructor
  · intro heq other hmem hne
    have hlength := congrArg List.length heq
    rw [List.length_map, List.length_map] at hlength
    exact of_decide_eq_true
      (List.length_filter_eq_length_iff.1 hlength other (by simp [hmem, hne]))
  · intro hall
    rw [List.filter_eq_self.2]
    intro other hother
    simp only [List.mem_filter, decide_eq_true_eq] at hother ⊢
    exact hall other hother.1 hother.2

end Sound

/-- After any operations, the roster counts everybody who has announced something just when
each of them holds their address, and a member that announces is told of all others who
have just when each of these does. -/
theorem all_visible_iff (changes : List Change) :
    ((after changes).roster.registeredCount = (after changes).announcers.length ↔
      ∀ handle ∈ (after changes).announcers, handle ∈ (after changes).holders) ∧
    ∀ self entry, (after changes).roster.viewOf self ≠ none →
      ∃ lists : List (List PeerEntry),
        ((after changes).roster.introduce self entry).val.2.pending self =
          (after changes).roster.pending self ++ lists.map Message.peersToConnect ∧
        (lists.flatten.map some =
            ((after changes).announcers.filter fun other => other ≠ self).map
              (after changes).announced ↔
          ∀ other ∈ (after changes).announcers, other ≠ self →
            other ∈ (after changes).holders) := by
  have h := sound_after changes
  refine ⟨h.registeredCount_eq_iff, fun self entry hview => ?_⟩
  obtain ⟨control, hcontrol⟩ := Option.ne_none_iff_exists'.1 hview
  obtain ⟨-, lists, hspread⟩ :=
    Roster.spread_introduce h.wellFormed h.held hcontrol entry
  refine ⟨lists, ?_, ?_⟩
  · rw [hspread.pending, Roster.news, if_pos rfl]
  · rw [hspread.entries, ← h.audience_eq, h.map_audience_eq_iff]

/-- Two members announce something, one after the other, and somebody else is attached. -/
def twoAnnouncers (first second newcomer : SocketAddr) (entry entry' : PeerEntry) :
    List Change :=
  [.enroll (.ofStream ⟨0⟩) first ⟨.origin, none⟩, .enroll (.ofStream ⟨1⟩) second ⟨.origin, none⟩,
    .introduce ⟨0⟩ entry, .introduce ⟨1⟩ entry',
    .enroll (.ofStream ⟨2⟩) newcomer ⟨.origin, none⟩]

/-- `1.2.3.4:5`, which `sharedView` maps. -/
def plainAddr : SocketAddr := .v4 ⟨.ofOctets 1 2 3 4, 5⟩

/-- `[::ffff:1.2.3.4]:5` -/
def sharedView : SocketAddr := .v6 ⟨⟨#v[0, 0, 0, 0, 0, 0xffff, 0x0102, 0x0304]⟩, 5, 0⟩

/-- `10.0.0.1:1` -/
def otherAddr : SocketAddr := .v4 ⟨.ofOctets 10 0 0 1, 1⟩

/-- An entry with public port `port`. -/
def entryAt (port : UInt16) : PeerEntry :=
  ⟨⟨.ofOctets 1 2 3 4, port⟩, ⟨.ofOctets 1 2 3 4, 5⟩⟩

/-- Members with different addresses are seen. -/
theorem all_visible_of_different_addresses :
    let c := after (twoAnnouncers plainAddr otherAddr sharedView (entryAt 6) (entryAt 7))
    c.roster.viewOf ⟨2⟩ ≠ none ∧ c.roster.registeredCount = c.announcers.length ∧
      ∃ lists : List (List PeerEntry),
        (c.roster.introduce ⟨2⟩ (entryAt 8)).val.2.pending ⟨2⟩ =
          c.roster.pending ⟨2⟩ ++ lists.map Message.peersToConnect ∧
        lists.flatten.map some =
          (c.announcers.filter fun other => other ≠ ⟨2⟩).map c.announced := by
  have hview : (after (twoAnnouncers plainAddr otherAddr sharedView (entryAt 6)
      (entryAt 7))).roster.viewOf ⟨2⟩ ≠ none := by decide +kernel
  have hvisible := all_visible_iff
    (twoAnnouncers plainAddr otherAddr sharedView (entryAt 6) (entryAt 7))
  obtain ⟨lists, hpending, hlists⟩ := hvisible.2 ⟨2⟩ (entryAt 8) hview
  exact ⟨hview, hvisible.1.2 (by decide +kernel), lists, hpending, hlists.2 (by decide +kernel)⟩

/-- Of two members whose addresses have the same view, the second one is neither counted nor
seen by a third. -/
theorem not_all_visible :
    let c := after (twoAnnouncers plainAddr sharedView otherAddr (entryAt 6) (entryAt 7))
    c.announcers = [⟨0⟩, ⟨1⟩] ∧ c.roster.registeredCount = 1 ∧
      c.announced ⟨1⟩ = some (entryAt 7) ∧
        (c.roster.introduce ⟨2⟩ (entryAt 8)).val.1 = some 1 ∧
          (c.roster.introduce ⟨2⟩ (entryAt 8)).val.2.pending ⟨2⟩ =
            [.peersToConnect [entryAt 6]] := by
  decide +kernel

end Chronicle
end Rendezvous
