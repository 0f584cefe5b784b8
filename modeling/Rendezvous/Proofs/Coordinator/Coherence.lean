import Rendezvous.Proofs.Coordinator.Visibility

/-!
# Rendezvous.Proofs.Coordinator.Coherence

**What is bound is a member that announced from the address.** Handles carry no generation,
so a binding that outlived its member would be credited to the next connection in the slot.
It never does (`coherent`): whoever is bound is attached, has the address and has announced
something, and a handle whose member has left is bound again only by an announcement that
was made under it since and not ignored.

The other direction needs a history without shared addresses (`Solitary`), not only a
moment without them. Of two members whose addresses have the same view, the second to
announce is not bound, and stays so when the first one leaves
(`not_registered_after_first_leaves`).
-/

namespace Rendezvous
namespace Chronicle

open Roster (Change)

variable {c : Chronicle} {handle other : Handle} {key : SocketV4}

/-- No two attached members have addresses with the same IPv4 view. -/
def Apart (c : Chronicle) : Prop :=
  ∀ handle other key, c.roster.viewOf handle = some key → c.roster.viewOf other = some key →
    handle = other

/-- Whenever something was announced, no two attached members had addresses with the same
IPv4 view. -/
def Solitary (changes : List Change) : Prop :=
  ∀ earlier handle entry later, changes = earlier ++ .introduce handle entry :: later →
    (after earlier).Apart

/-- How bindings and members agree after some operations. -/
structure Coherent (changes : List Change) : Prop where
  /-- Whoever is bound to an address is attached, has it, and has announced something. -/
  bound : ∀ key owner, (after changes).roster.addresses.get? key = some owner →
    ∃ member, (after changes).roster.get? owner = some member ∧
      member.addr.ipv4View = some key ∧ member.entry.isSome = true
  /-- Nobody is bound to two addresses. -/
  single : ∀ key key' owner, (after changes).roster.addresses.get? key = some owner →
    (after changes).roster.addresses.get? key' = some owner → key = key'
  /-- A handle that somebody has left is bound only by an announcement that was made under
  it later and was not ignored. -/
  released : ∀ earlier handle later key, changes = earlier ++ .detach handle :: later →
    (after changes).roster.addresses.get? key = some handle →
      ∃ before entry rest, later = before ++ .introduce handle entry :: rest ∧
        ((after (earlier ++ .detach handle :: before)).roster.introduce handle
          entry).val.1.isSome = true
  /-- To be registered is to have announced something just for those who hold their address
  if they have. -/
  registered_iff : ∀ handle,
    ((after changes).roster.isRegistered handle = true ↔
        ((after changes).roster.entryOf handle).isSome = true) ↔
      (handle ∈ (after changes).announcers → handle ∈ (after changes).holders)
  /-- It is for everybody if addresses were never shared while something was announced. -/
  registered : Solitary changes → ∀ handle,
    (after changes).roster.isRegistered handle = true ↔
      ((after changes).roster.entryOf handle).isSome = true

/-! ### How a member comes to hold its address -/

/-- Holders announced something that was not ignored. -/
theorem holds_of_record {change : Change} (hmem : handle ∈ (c.record change).holders) :
    handle ∈ c.holders ∨ ∃ entry, change = .introduce handle entry ∧
      (c.roster.introduce handle entry).val.1.isSome = true := by
  cases change with
  | enroll stream addr timer => exact .inl hmem
  | post other msg => exact .inl hmem
  | takeNext other => exact .inl hmem
  | detach other => exact .inl (List.mem_of_mem_filter hmem)
  | introduce other entry =>
      simp only [record, Roster.holdersAfter] at hmem
      split at hmem
      next hfirst =>
        rcases List.mem_append.1 hmem with hmem | hmem
        · exact .inl hmem
        · obtain rfl := List.mem_singleton.1 hmem
          obtain ⟨control, hview⟩ := Option.isSome_iff_exists.1 hfirst.1
          exact .inr ⟨entry, rfl, by rw [Roster.introduce_of_viewOf hview]; rfl⟩
      next => exact .inl hmem

/-- Whoever did not hold an address before some operations and does afterwards announced
something in between. -/
theorem holds_of_append {earlier later : List Change} (hnot : handle ∉ (after earlier).holders)
    (hmem : handle ∈ (after (earlier ++ later)).holders) :
    ∃ before entry rest, later = before ++ .introduce handle entry :: rest ∧
      ((after (earlier ++ before)).roster.introduce handle entry).val.1.isSome = true := by
  induction later using List.reverseRecOn with
  | nil => exact absurd (by simpa using hmem) hnot
  | append_singleton later change ih =>
      rw [← List.append_assoc, after_concat] at hmem
      rcases holds_of_record hmem with hmem | ⟨entry, rfl, hanswered⟩
      · obtain ⟨before, entry, rest, rfl, hanswered⟩ := ih hmem
        exact ⟨before, entry, rest ++ [change], by simp, hanswered⟩
      · exact ⟨later, entry, [], rfl, hanswered⟩

/-- Whoever leaves holds nothing. -/
theorem not_holds_of_detach (changes : List Change) (handle : Handle) :
    handle ∉ (after (changes ++ [.detach handle])).holders := by
  rw [after_concat]
  intro hmem
  simpa using (List.mem_filter.1 hmem).2

/-! ### Histories without shared addresses -/

theorem Solitary.of_append {changes later : List Change} (h : Solitary (changes ++ later)) :
    Solitary changes := by
  rintro earlier handle entry rest rfl
  exact h earlier handle entry (rest ++ later) (by simp)

/-- Whoever announces something while no other member has its address holds it. -/
theorem Sound.mem_holdersAfter_of_apart (h : Sound c) (hapart : c.Apart)
    (hview : c.roster.viewOf handle = some key) :
    handle ∈ c.roster.holdersAfter c.holders handle := by
  rw [h.held.mem_holdersAfter hview, h.held.get?_eq_none_iff]
  by_cases hmem : handle ∈ c.holders
  · exact .inl hmem
  · refine .inr ⟨rfl, fun holder hholder hshared => hmem ?_⟩
    rwa [hapart handle holder key hview hshared]

theorem holders_subset_holdersAfter (c : Chronicle) (handle : Handle) :
    c.holders ⊆ c.roster.holdersAfter c.holders handle := by
  unfold Roster.holdersAfter
  split
  · exact List.subset_append_left ..
  · exact List.Subset.refl _

/-- If addresses were never shared while something was announced, whoever has announced
something holds its address. -/
theorem Solitary.mem_holders {changes : List Change} (h : Solitary changes) :
    ∀ handle, ((after changes).announced handle).isSome = true →
      handle ∈ (after changes).holders := by
  induction changes using List.reverseRecOn with
  | nil => simp [after, empty]
  | append_singleton changes change ih =>
      have hold := ih h.of_append
      have hsound := sound_after changes
      rw [after_concat]
      intro handle hannounced
      cases change with
      | enroll stream addr timer =>
          simp only [record, Function.update_apply] at hannounced
          split at hannounced
          · cases hannounced
          · exact hold handle hannounced
      | post other msg => exact hold handle hannounced
      | takeNext other => exact hold handle hannounced
      | detach other =>
          simp only [record, Function.update_apply] at hannounced
          split at hannounced
          next => cases hannounced
          next hne => exact List.mem_filter.2 ⟨hold handle hannounced, decide_eq_true hne⟩
      | introduce other entry =>
          have hapart : (after changes).Apart := h changes other entry [] rfl
          simp only [record, Function.update_apply] at hannounced ⊢
          split at hannounced
          next hself =>
            subst hself
            rw [Option.isSome_map] at hannounced
            cases hview : (after changes).roster.viewOf handle with
            | none =>
                rw [Roster.introduce_of_viewOf_none hview] at hannounced
                cases hannounced
            | some key => exact hsound.mem_holdersAfter_of_apart hapart hview
          next => exact holders_subset_holdersAfter _ other (hold handle hannounced)

/-! ### After any operations -/

/-- After any operations, bindings and members agree. -/
theorem coherent (changes : List Change) : Coherent changes := by
  have h := sound_after changes
  have hentry : ∀ handle, ((after changes).roster.entryOf handle).isSome = true ↔
      handle ∈ (after changes).announcers := by
    intro handle
    rw [h.mem_announcers, h.announced]
  refine ⟨?_, ?_, ?_, ?_, ?_⟩
  · intro key owner hbound
    obtain ⟨hmem, hview⟩ := (h.held.bound key owner).1 hbound
    obtain ⟨-, entry, -, hentry⟩ := h.held.entry owner hmem
    obtain ⟨member, hget, hkey⟩ := Roster.viewOf_eq_some.1 hview
    rw [Roster.entryOf, hget, Option.bind_some] at hentry
    exact ⟨member, hget, hkey, by rw [hentry]; rfl⟩
  · intro key key' owner hbound hbound'
    have hview := ((h.held.bound key owner).1 hbound).2
    rw [((h.held.bound key' owner).1 hbound').2] at hview
    exact (Option.some.inj hview).symm
  · rintro earlier handle later key rfl hbound
    have hmem := ((h.held.bound key handle).1 hbound).1
    rw [← List.singleton_append, ← List.append_assoc] at hmem
    obtain ⟨before, entry, rest, hlater, hanswered⟩ :=
      holds_of_append (not_holds_of_detach earlier handle) hmem
    rw [List.append_assoc, List.singleton_append] at hanswered
    exact ⟨before, entry, rest, hlater, hanswered⟩
  · intro handle
    rw [h.held.isRegistered_iff, hentry]
    exact ⟨fun hiff => hiff.2, fun himp => ⟨h.mem_announcers_of_mem_holders, himp⟩⟩
  · intro hsolitary handle
    rw [h.held.isRegistered_iff, hentry]
    refine ⟨h.mem_announcers_of_mem_holders, fun hmem => ?_⟩
    exact hsolitary.mem_holders handle (h.mem_announcers.1 hmem)

/-- Two members announce something from addresses with the same view, and the first one
leaves. -/
def firstLeaves : List Change :=
  [.enroll (.ofStream ⟨0⟩) plainAddr ⟨.origin, none⟩,
    .enroll (.ofStream ⟨1⟩) sharedView ⟨.origin, none⟩,
    .introduce ⟨0⟩ (entryAt 6), .introduce ⟨1⟩ (entryAt 7), .detach ⟨0⟩]

/-- The second one is alone then and has announced something, but is not registered. -/
theorem not_registered_after_first_leaves :
    (after firstLeaves).Apart ∧ (after firstLeaves).attached = [⟨1⟩] ∧
      (after firstLeaves).roster.viewOf ⟨1⟩ = some ⟨.ofOctets 1 2 3 4, 5⟩ ∧
        (after firstLeaves).roster.entryOf ⟨1⟩ = some (entryAt 7) ∧
          (after firstLeaves).roster.isRegistered ⟨1⟩ = false := by
  have hattached : (after firstLeaves).attached = [⟨1⟩] := by decide +kernel
  have hone : ∀ handle key, (after firstLeaves).roster.viewOf handle = some key →
      handle = ⟨1⟩ := by
    intro handle key hview
    obtain ⟨member, hget, -⟩ := Roster.viewOf_eq_some.1 hview
    have hmem := (sound_after firstLeaves).mem_attached.2 ⟨member, hget⟩
    rw [hattached] at hmem
    exact List.mem_singleton.1 hmem
  refine ⟨?_, hattached, by decide +kernel, by decide +kernel, by decide +kernel⟩
  intro handle other key hview hview'
  rw [hone handle key hview, hone other key hview']

end Chronicle
end Rendezvous
