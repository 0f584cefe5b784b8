import Rendezvous.Proofs.Coordinator.AddressChains
import Mathlib.Data.Finmap

/-!
# Rendezvous.Proofs.Coordinator.AddressBindings

**An address map is a finite map that keeps the first binding of a key.** The `Bindings`
of an address map are a finite map from keys to handles, and whatever is asked of both
(`Request`), the answers are the same, however many keys share a bucket and however often
nodes are reused (`answers_eq_and_routed`).

What carries this besides the laws of a well-formed map is that no node is lost: every live
node stands in the chain of the bucket of its key (`Covered`), so that chains hold all of
the slab and nothing else (`Routed`).
-/

namespace Rendezvous
namespace AddressMap

variable {map : AddressMap}

/-! ### Requests and their answers -/

/-- Something that is asked of an address map. -/
inductive Request where
  | insert (key : SocketV4) (owner : Handle)
  | remove (key : SocketV4)
  | get (key : SocketV4)
  | contains (key : SocketV4)
  | size

inductive Answer where
  | truth (holds : Bool)
  | owner (handle : Option Handle)
  | number (count : Nat)

/-- What an address map answers to a request, and what it becomes. -/
def answer (map : AddressMap) : Request → Answer × AddressMap
  | .insert key owner => (.truth (map.insert key owner).1, (map.insert key owner).2)
  | .remove key => (.owner (map.remove key).1, (map.remove key).2)
  | .get key => (.owner (map.get? key), map)
  | .contains key => (.truth (map.contains key), map)
  | .size => (.number map.size, map)

/-- The keys that are bound and their handles. -/
abbrev Bindings := Finmap fun _ : SocketV4 => Handle

/-- What a finite map answers to a request, and what it becomes. -/
def Bindings.answer (bindings : Bindings) : Request → Answer × Bindings
  | .insert key owner =>
    if key ∈ bindings then (.truth false, bindings)
    else (.truth true, bindings.insert key owner)
  | .remove key => (.owner (bindings.lookup key), bindings.erase key)
  | .get key => (.owner (bindings.lookup key), bindings)
  | .contains key => (.truth (decide (key ∈ bindings)), bindings)
  | .size => (.number bindings.keys.card, bindings)

/-- The answers to requests made one after the other. -/
def answers {σ : Type} (answer : σ → Request → Answer × σ) (state : σ) :
    List Request → List Answer
  | [] => []
  | request :: requests =>
    (answer state request).1 :: answers answer (answer state request).2 requests

/-- The map after some requests, beginning with no bindings. -/
def after (requests : List Request) : AddressMap :=
  requests.foldl (fun map request => (map.answer request).2) empty

/-! ### No node is lost -/

/-- Every live node is in the chain of the bucket of its key. -/
def Covered (map : AddressMap) : Prop :=
  ∀ handle node, map.nodes.get? handle = some node →
    handle ∈ (map.chainOf node.key.bucket).map Prod.fst

theorem covered_empty : Covered empty := by
  intro handle node hget
  cases hget

theorem Covered.insert (hc : map.Covered) (h : map.WellFormed) (key : SocketV4)
    (owner : Handle) : (map.insert key owner).2.Covered := by
  cases hcontains : map.contains key with
  | true => rwa [insert_of_contains hcontains]
  | false =>
      have hwf := h.insert key owner
      have hnodes : (map.insert key owner).2.nodes =
          (map.nodes.insert (map.newNode key owner)).2 := by
        simp [AddressMap.insert, hcontains, newNode, head]
      intro handle node hget
      rw [((h.chained_chainOf _).insert h.nodes hcontains owner).chainOf_eq hwf.nodes]
      rw [hnodes, h.nodes.get?_insert] at hget
      split at hget
      next hnew =>
        obtain rfl := Option.some.inj hget
        simp [hnew]
      next =>
        have hold := hc handle node hget
        split
        · exact List.mem_cons_of_mem _ hold
        · exact hold

theorem Covered.remove (hc : map.Covered) (h : map.WellFormed) (key : SocketV4) :
    (map.remove key).2.Covered := by
  cases hbound : map.get? key with
  | none => rwa [remove_of_unbound hbound]
  | some owner =>
      obtain ⟨before, handle, node, after, hchain, hkey, -, hother⟩ := h.split_chain hbound
      have hwf := h.remove key
      intro other found hget
      rw [h.nodes_remove hchain hkey hother] at hget
      split at hget
      next => cases hget
      next hne =>
        -- At most the link of the node has changed, so it was in the chain of the same bucket.
        obtain ⟨old, hlive, hbucket⟩ : ∃ old, map.nodes.get? other = some old ∧
            old.key.bucket = found.key.bucket := by
          split at hget
          · obtain ⟨old, hlive, rfl⟩ := Option.map_eq_some_iff.1 hget
            exact ⟨old, hlive, rfl⟩
          · exact ⟨found, hget, rfl⟩
        have hcovered := hc other old hlive
        rw [hbucket] at hcovered
        by_cases hsame : found.key.bucket = key.bucket
        · have hold : other ∈ (map.chain key).map Prod.fst := by rwa [hsame] at hcovered
          rw [hchain] at hold
          rw [hsame, (h.chained_remove hchain hkey hother).chainOf_eq hwf.nodes, List.map_append,
            map_redirect Prod.fst fun _ _ _ => rfl, ← List.map_append]
          simpa [hne] using hold
        · have hchained := h.chained_remove_of_ne hchain hkey hother hsame (h.chained_chainOf _)
          rwa [hchained.chainOf_eq hwf.nodes]

/-- The nodes of an address map, by bucket. -/
structure Routed (map : AddressMap) : Prop where
  /-- Following the links of a bucket leads from live node to live node and ends. -/
  linked : ∀ bucket, Linked map.nodes (map.head bucket) (map.chainOf bucket)
  nodup : ∀ bucket, ((map.chainOf bucket).map Prod.fst).Nodup
  keys_nodup : ∀ bucket, ((map.chainOf bucket).map fun entry => entry.2.key).Nodup
  /-- A live node is in the chain of the bucket of its key, and in no other. -/
  mem_iff : ∀ handle node, map.nodes.get? handle = some node → ∀ bucket,
    handle ∈ (map.chainOf bucket).map Prod.fst ↔ bucket = node.key.bucket

theorem WellFormed.routed (h : map.WellFormed) (hc : map.Covered) : map.Routed := by
  have hchained := h.chained_chainOf
  refine ⟨fun bucket => (hchained bucket).linked, fun bucket => (hchained bucket).nodup,
    fun bucket => (hchained bucket).keys_nodup, ?_⟩
  intro handle node hget bucket
  constructor
  · intro hmem
    obtain ⟨entry, hentry, rfl⟩ := List.mem_map.1 hmem
    have hlive := (hchained bucket).linked.live entry hentry
    rw [hget] at hlive
    rw [Option.some.inj hlive]
    exact ((hchained bucket).bucket_eq entry hentry).symm
  · rintro rfl
    exact hc handle node hget

/-! ### The finite map of an address map -/

theorem fst_insert (map : AddressMap) (key : SocketV4) (owner : Handle) :
    (map.insert key owner).1 = !map.contains key := by
  cases hcontains : map.contains key <;> simp [AddressMap.insert, hcontains]

/-- Removing answers the handle that was bound. -/
theorem WellFormed.fst_remove (h : map.WellFormed) (key : SocketV4) :
    (map.remove key).1 = map.get? key := by
  cases hbound : map.get? key with
  | none => rw [remove_of_unbound hbound]
  | some owner =>
      obtain ⟨before, handle, node, after, hchain, hkey, howner, hother⟩ := h.split_chain hbound
      have hlive := (h.chained_chain key).linked.live (handle, node) (by rw [hchain]; simp)
      rw [remove_of_chain hchain hkey hother]
      unfold relink
      split
      · simp only [Slab.get?_modify]
        split <;> simp [hlive, howner]
      · simp [hlive, howner]

/-- An address map and the finite map of its bindings. -/
structure Represents (map : AddressMap) (bindings : Bindings) : Prop where
  wellFormed : map.WellFormed
  covered : map.Covered
  get? : ∀ key, map.get? key = bindings.lookup key
  size : map.size = bindings.keys.card

namespace Represents

variable {bindings : Bindings}

theorem empty : Represents AddressMap.empty ∅ where
  wellFormed := wellFormed_empty
  covered := covered_empty
  get? := fun key => by rw [get?_empty, Finmap.lookup_empty]
  size := rfl

theorem contains (h : Represents map bindings) (key : SocketV4) :
    map.contains key = decide (key ∈ bindings) := by
  rw [Bool.eq_iff_iff, decide_eq_true_eq, ← Finmap.lookup_isSome, ← h.get?]
  rfl

theorem insert (h : Represents map bindings) {key : SocketV4} (habsent : key ∉ bindings)
    (owner : Handle) : Represents (map.insert key owner).2 (bindings.insert key owner) where
  wellFormed := h.wellFormed.insert key owner
  covered := h.covered.insert h.wellFormed key owner
  get? := by
    intro other
    have hunbound : map.get? key = none := by rw [h.get?, Finmap.lookup_eq_none.2 habsent]
    rw [h.wellFormed.get?_insert]
    by_cases hsame : other = key
    · rw [if_pos ⟨hsame, hunbound⟩, hsame, Finmap.lookup_insert]
    · rw [if_neg fun hnew => hsame hnew.1, Finmap.lookup_insert_of_ne _ hsame, h.get?]
  size := by
    have hunbound : map.get? key = none := by rw [h.get?, Finmap.lookup_eq_none.2 habsent]
    have hkeys : (bindings.insert key owner).keys = Insert.insert key bindings.keys := by
      ext other
      simp [Finmap.mem_keys]
    have hfresh : key ∉ bindings.keys := fun hmem => habsent (Finmap.mem_keys.1 hmem)
    rw [size_insert, if_pos hunbound, h.size, hkeys, Finset.card_insert_of_notMem hfresh]

theorem remove (h : Represents map bindings) (key : SocketV4) :
    Represents (map.remove key).2 (bindings.erase key) where
  wellFormed := h.wellFormed.remove key
  covered := h.covered.remove h.wellFormed key
  get? := by
    intro other
    rw [h.wellFormed.get?_remove]
    by_cases hsame : other = key
    · rw [if_pos hsame, hsame, Finmap.lookup_erase]
    · rw [if_neg hsame, Finmap.lookup_erase_ne hsame, h.get?]
  size := by
    rw [Finmap.keys_erase]
    cases hbound : map.get? key with
    | none =>
        have habsent : key ∉ bindings.keys := by
          rw [Finmap.mem_keys, ← Finmap.lookup_eq_none, ← h.get?, hbound]
        rw [remove_of_unbound hbound, h.size, Finset.erase_eq_of_notMem habsent]
    | some owner =>
        have hmem : key ∈ bindings.keys := by
          rw [Finmap.mem_keys, ← Finmap.lookup_isSome, ← h.get?, hbound]
          rfl
        rw [h.wellFormed.size_remove hbound, h.size, Finset.card_erase_of_mem hmem]

/-- A request is answered alike, and the bindings stay those of the map. -/
theorem answer (h : Represents map bindings) (request : Request) :
    (map.answer request).1 = (bindings.answer request).1 ∧
      Represents (map.answer request).2 (bindings.answer request).2 := by
  cases request with
  | insert key owner =>
      simp only [AddressMap.answer, Bindings.answer, fst_insert, h.contains key]
      by_cases hmem : key ∈ bindings
      · have hbound : map.contains key = true := by simpa [h.contains key] using hmem
        simp [hmem, insert_of_contains hbound, h]
      · simp [hmem, h.insert hmem owner]
  | remove key =>
      exact ⟨congrArg Answer.owner ((h.wellFormed.fst_remove key).trans (h.get? key)), h.remove key⟩
  | get key => exact ⟨congrArg Answer.owner (h.get? key), h⟩
  | contains key => exact ⟨congrArg Answer.truth (h.contains key), h⟩
  | size => exact ⟨congrArg Answer.number h.size, h⟩

theorem answers (h : Represents map bindings) (requests : List Request) :
    AddressMap.answers AddressMap.answer map requests =
      AddressMap.answers Bindings.answer bindings requests := by
  induction requests generalizing map bindings with
  | nil => rfl
  | cons request requests ih =>
      obtain ⟨hsame, hnext⟩ := h.answer request
      rw [AddressMap.answers, AddressMap.answers, hsame, ih hnext]

end Represents

theorem exists_represents_after (requests : List Request) :
    ∃ bindings, Represents (after requests) bindings := by
  induction requests using List.reverseRecOn with
  | nil => exact ⟨∅, .empty⟩
  | append_singleton requests request ih =>
      obtain ⟨bindings, h⟩ := ih
      rw [after, List.foldl_concat]
      exact ⟨_, (h.answer request).2⟩

/-- Whatever is asked of an address map, it answers as a finite map that keeps the first
binding of a key, and its chains hold every node once, where its key belongs. -/
theorem answers_eq_and_routed (requests : List Request) :
    answers answer empty requests = answers Bindings.answer ∅ requests ∧
      (after requests).Routed := by
  obtain ⟨bindings, h⟩ := exists_represents_after requests
  exact ⟨Represents.empty.answers requests, h.wellFormed.routed h.covered⟩

end AddressMap
end Rendezvous
