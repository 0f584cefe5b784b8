import Rendezvous.Coordinator.AddressMap
import Rendezvous.Proofs.Memory.SlabCapacity
import Mathlib.Data.List.TakeWhile

/-!
# Rendezvous.Proofs.Coordinator.AddressChains

**The chains of an address map hold its bindings.** In a `WellFormed` map the chain of
each bucket is a list of live nodes, each of which is in it once and belongs in it
(`Linked`). A walk along a chain therefore ends before its steps run out, and looking a
key up finds the binding that was made first (`get?_insert`) until it is removed
(`get?_remove`).
-/

namespace Rendezvous
namespace AddressMap

variable {nodes : Slab AddressNode} {link : Option Handle} {chain : List (Handle × AddressNode)}
  {map : AddressMap}

/-! ### Chains -/

/-- The nodes of a chain from a link on: each of them is live, and the last one has no
successor. -/
inductive Linked (nodes : Slab AddressNode) : Option Handle → List (Handle × AddressNode) → Prop
  where
  | nil : Linked nodes none []
  | cons {handle : Handle} {node : AddressNode} {chain : List (Handle × AddressNode)}
    (live : nodes.get? handle = some node) (rest : Linked nodes node.next chain) :
    Linked nodes (some handle) ((handle, node) :: chain)

namespace Linked

theorem live (h : Linked nodes link chain) :
    ∀ entry ∈ chain, nodes.get? entry.1 = some entry.2 := by
  induction h with
  | nil => simp
  | cons hget _ ih =>
      intro entry hentry
      rcases List.mem_cons.1 hentry with rfl | hentry
      · exact hget
      · exact ih entry hentry

/-- A walk with enough steps finds the whole chain. -/
theorem chainFrom_eq (h : Linked nodes link chain) {steps : Nat} (hsteps : chain.length ≤ steps) :
    chainFrom nodes steps link = chain := by
  induction h generalizing steps with
  | nil => cases steps <;> rfl
  | cons hget _ ih =>
      obtain ⟨steps, rfl⟩ : ∃ n, steps = n + 1 := ⟨steps - 1, by simp at hsteps; omega⟩
      simp only [chainFrom, hget]
      rw [ih (by simpa using hsteps)]

/-- A chain does not change as long as its nodes do not. -/
theorem congr (h : Linked nodes link chain) {nodes' : Slab AddressNode}
    (hkeep : ∀ entry ∈ chain, nodes'.get? entry.1 = nodes.get? entry.1) :
    Linked nodes' link chain := by
  induction h with
  | nil => exact .nil
  | cons hget _ ih =>
      refine .cons ((hkeep _ List.mem_cons_self).trans hget) (ih fun entry hentry => ?_)
      exact hkeep entry (List.mem_cons_of_mem _ hentry)

end Linked

/-! ### Well-formed maps -/

/-- A chain of a bucket: its nodes are different, and so are their keys, which belong in
the bucket. -/
structure Chained (map : AddressMap) (bucket : Fin bucketCount)
    (chain : List (Handle × AddressNode)) : Prop where
  linked : Linked map.nodes map.heads[bucket] chain
  nodup : (chain.map Prod.fst).Nodup
  keys_nodup : (chain.map fun entry => entry.2.key).Nodup
  bucket_eq : ∀ entry ∈ chain, entry.2.key.bucket = bucket

/-- The slab is well formed, and every bucket has a chain. -/
structure WellFormed (map : AddressMap) : Prop where
  nodes : map.nodes.WellFormed
  chained : ∀ bucket, ∃ chain, Chained map bucket chain

theorem wellFormed_empty : empty.WellFormed where
  nodes := Slab.wellFormed_empty
  chained := by
    intro bucket
    refine ⟨[], ?_, List.nodup_nil, List.nodup_nil, by simp⟩
    have hhead : empty.heads[bucket] = none := by simp [empty]
    rw [hhead]
    exact .nil

@[simp] theorem get?_empty (key : SocketV4) : empty.get? key = none := rfl

/-- The chain of a bucket. -/
def chainOf (map : AddressMap) (bucket : Fin bucketCount) : List (Handle × AddressNode) :=
  chainFrom map.nodes map.nodes.capacity map.heads[bucket]

theorem Chained.chainOf_eq (hwf : map.nodes.WellFormed) {bucket : Fin bucketCount}
    (h : Chained map bucket chain) : map.chainOf bucket = chain := by
  refine h.linked.chainFrom_eq ?_
  have hlength := hwf.length_le_capacity h.nodup fun handle hmem => by
    obtain ⟨entry, hentry, rfl⟩ := List.mem_map.1 hmem
    exact ⟨entry.2, h.linked.live entry hentry⟩
  simpa using hlength

theorem WellFormed.chained_chainOf (h : map.WellFormed) (bucket : Fin bucketCount) :
    Chained map bucket (map.chainOf bucket) := by
  obtain ⟨chain, hchain⟩ := h.chained bucket
  rwa [hchain.chainOf_eq h.nodes]

/-- Looking for a key walks the chain of its bucket to the end. -/
theorem Chained.chain_eq (hwf : map.nodes.WellFormed) {key : SocketV4}
    (h : Chained map key.bucket chain) : map.chain key = chain :=
  h.chainOf_eq hwf

theorem WellFormed.chained_chain (h : map.WellFormed) (key : SocketV4) :
    Chained map key.bucket (map.chain key) :=
  h.chained_chainOf key.bucket

theorem Chained.get?_eq_none_iff (hwf : map.nodes.WellFormed) {key : SocketV4}
    (h : Chained map key.bucket chain) :
    map.get? key = none ↔ ∀ entry ∈ chain, entry.2.key ≠ key := by
  simp [get?, h.chain_eq hwf]

/-! ### Binding -/

/-- The first node of a bucket. -/
def head (map : AddressMap) (bucket : Fin bucketCount) : Option Handle := map.heads[bucket]

/-- The node with which a key is bound; it goes in front of the others in its bucket. -/
def newNode (map : AddressMap) (key : SocketV4) (owner : Handle) : AddressNode :=
  ⟨key, owner, map.head key.bucket⟩

@[simp] theorem key_newNode (map : AddressMap) (key : SocketV4) (owner : Handle) :
    (map.newNode key owner).key = key := rfl

@[simp] theorem owner_newNode (map : AddressMap) (key : SocketV4) (owner : Handle) :
    (map.newNode key owner).owner = owner := rfl

theorem insert_of_contains {key : SocketV4} (h : map.contains key = true) (owner : Handle) :
    map.insert key owner = (false, map) := by
  simp [insert, h]

/-- The chains after a key has been bound: that of its bucket has a new node in front. -/
theorem Chained.insert (hwf : map.nodes.WellFormed) {key : SocketV4}
    (habsent : map.contains key = false) (owner : Handle) {bucket : Fin bucketCount}
    (h : Chained map bucket chain) :
    Chained (map.insert key owner).2 bucket
      (if bucket = key.bucket then
        ((map.nodes.insert (map.newNode key owner)).1, map.newNode key owner) :: chain
      else chain) := by
  have hfresh := hwf.get?_fst_insert (map.newNode key owner)
  have hget := hwf.get?_insert (map.newNode key owner)
  have hnew : ∀ entry ∈ chain,
      entry.1 ≠ (map.nodes.insert (map.newNode key owner)).1 := by
    intro entry hentry heq
    have hlive := h.linked.live entry hentry
    rw [heq, hfresh] at hlive
    cases hlive
  have hlinked : Linked (map.nodes.insert (map.newNode key owner)).2
      map.heads[bucket] chain := by
    refine h.linked.congr ?_
    intro entry hentry
    rw [hget, if_neg (hnew entry hentry)]
  have hinsert : (map.insert key owner).2 =
      ⟨map.heads.set key.bucket (some (map.nodes.insert (map.newNode key owner)).1),
        (map.nodes.insert (map.newNode key owner)).2⟩ := by
    simp [AddressMap.insert, habsent, newNode, head]
  rw [hinsert]
  by_cases hsame : bucket = key.bucket
  · subst hsame
    rw [if_pos rfl]
    refine ⟨?_, ?_, ?_, ?_⟩
    · simp only [Fin.getElem_fin, Vector.getElem_set_self]
      exact .cons ((hget _).trans (if_pos rfl)) hlinked
    · rw [List.map_cons, List.nodup_cons]
      refine ⟨?_, h.nodup⟩
      intro hmem
      obtain ⟨entry, hentry, heq⟩ := List.mem_map.1 hmem
      exact hnew entry hentry heq
    · rw [List.map_cons, List.nodup_cons]
      refine ⟨?_, h.keys_nodup⟩
      intro hmem
      obtain ⟨entry, hentry, heq⟩ := List.mem_map.1 hmem
      have hunbound : map.get? key = none := by simpa [contains] using habsent
      exact (h.get?_eq_none_iff hwf).1 hunbound entry hentry heq
    · intro entry hentry
      rcases List.mem_cons.1 hentry with rfl | hentry
      · rfl
      · exact h.bucket_eq entry hentry
  · rw [if_neg hsame]
    refine ⟨?_, h.nodup, h.keys_nodup, h.bucket_eq⟩
    have hne : key.bucket.val ≠ bucket.val := fun heq => hsame (Fin.ext heq.symm)
    simp only [Fin.getElem_fin, Vector.getElem_set_ne _ _ hne]
    exact hlinked

theorem WellFormed.insert (h : map.WellFormed) (key : SocketV4) (owner : Handle) :
    (map.insert key owner).2.WellFormed := by
  cases hcontains : map.contains key with
  | true =>
      rw [insert_of_contains hcontains]
      exact h
  | false =>
      refine ⟨?_, ?_⟩
      · simp only [AddressMap.insert, hcontains, Bool.false_eq_true, if_false]
        exact h.nodes.insert _
      · intro bucket
        obtain ⟨chain, hchain⟩ := h.chained bucket
        exact ⟨_, hchain.insert h.nodes hcontains owner⟩

/-- A key that is bound keeps its binding; otherwise it gets the new one. Other keys are
left alone. -/
theorem WellFormed.get?_insert (h : map.WellFormed) (key : SocketV4) (owner : Handle)
    (other : SocketV4) :
    (map.insert key owner).2.get? other =
      if other = key ∧ map.get? key = none then some owner else map.get? other := by
  cases hcontains : map.contains key with
  | true =>
      have hbound : map.get? key ≠ none := by
        rw [← Option.isSome_iff_ne_none]
        exact hcontains
      rw [insert_of_contains hcontains, if_neg fun hnew => hbound hnew.2]
  | false =>
      have hunbound : map.get? key = none := by simpa [contains] using hcontains
      have hchain := (h.chained_chain other).insert h.nodes hcontains owner
      have hwf := h.insert key owner
      by_cases hsame : other = key
      · subst hsame
        rw [if_pos ⟨rfl, hunbound⟩, get?, hchain.chain_eq hwf.nodes, if_pos rfl]
        simp
      · rw [if_neg fun hnew => hsame hnew.1, get?, get?, hchain.chain_eq hwf.nodes]
        split
        · rw [List.find?_cons_of_neg]
          simp [Ne.symm hsame]
        · rfl

theorem size_insert (map : AddressMap) (key : SocketV4) (owner : Handle) :
    (map.insert key owner).2.size = map.size + if map.get? key = none then 1 else 0 := by
  cases hcontains : map.contains key with
  | true =>
      have hbound : map.get? key ≠ none := by
        rw [← Option.isSome_iff_ne_none]
        exact hcontains
      rw [insert_of_contains hcontains, if_neg hbound]
      rfl
  | false =>
      have hunbound : map.get? key = none := by simpa [contains] using hcontains
      simp [AddressMap.insert, hcontains, hunbound, size]

/-! ### Unbinding -/

/-- A part of a chain that goes on with another link than before. -/
def redirect : List (Handle × AddressNode) → Option Handle → List (Handle × AddressNode)
  | [], _ => []
  | [(handle, node)], next => [(handle, { node with next := next })]
  | entry :: chain, next => entry :: redirect chain next

/-- Only a link of a redirected part is another one. -/
theorem map_redirect {β : Type} (f : Handle × AddressNode → β)
    (hf : ∀ handle node next, f (handle, { node with next := next }) = f (handle, node))
    (chain : List (Handle × AddressNode)) (next : Option Handle) :
    (redirect chain next).map f = chain.map f := by
  fun_induction redirect chain next with
  | case1 => rfl
  | case2 => simp [hf]
  | case3 _ _ _ _ ih => simp [ih]

/-- A chain leaves a node out once the one before it goes on with its successor. -/
theorem Linked.bypass {before after : List (Handle × AddressNode)} {handle : Handle}
    {node : AddressNode} (h : Linked nodes link (before ++ (handle, node) :: after))
    {nodes' : Slab AddressNode}
    (hlast : ∀ entry, before.getLast? = some entry →
      nodes'.get? entry.1 = some { entry.2 with next := node.next })
    (hbefore : ∀ entry ∈ before.dropLast, nodes'.get? entry.1 = nodes.get? entry.1)
    (hafter : ∀ entry ∈ after, nodes'.get? entry.1 = nodes.get? entry.1) :
    Linked nodes' (if before = [] then node.next else link)
      (redirect before node.next ++ after) := by
  induction before generalizing link with
  | nil =>
      cases h with
      | cons _ hrest => exact hrest.congr hafter
  | cons entry before ih =>
      cases h with
      | @cons first start _ hget hrest =>
          cases before with
          | nil =>
              have hnext := ih hrest (by simp) (by simp)
              rw [if_neg (List.cons_ne_nil _ _)]
              exact .cons (hlast _ rfl) hnext
          | cons second before =>
              have hnext := ih hrest (fun entry hentry => hlast entry (by simpa using hentry))
                fun entry hentry => hbefore entry (by simp [hentry])
              rw [if_neg (List.cons_ne_nil _ _)] at hnext ⊢
              exact .cons ((hbefore (first, start) (by simp)).trans hget) hnext

/-- A key that is bound is in one node of its chain. -/
theorem WellFormed.split_chain (h : map.WellFormed) {key : SocketV4} {owner : Handle}
    (hbound : map.get? key = some owner) :
    ∃ before handle node after, map.chain key = before ++ (handle, node) :: after ∧
      node.key = key ∧ node.owner = owner ∧ ∀ entry ∈ before ++ after, entry.2.key ≠ key := by
  obtain ⟨⟨handle, node⟩, hfind, rfl⟩ := Option.map_eq_some_iff.1 hbound
  obtain ⟨hkey, before, after, hchain, hbefore⟩ := List.find?_eq_some_iff_append.1 hfind
  have hkey : node.key = key := by simpa using hkey
  refine ⟨before, handle, node, after, hchain, hkey, rfl, ?_⟩
  have hnodup := (h.chained_chain key).keys_nodup
  rw [hchain, List.map_append, List.map_cons, List.nodup_append, List.nodup_cons] at hnodup
  intro entry hentry heq
  rcases List.mem_append.1 hentry with hentry | hentry
  · simpa [heq] using hbefore entry hentry
  · exact hnodup.2.1.1 (List.mem_map.2 ⟨entry, hentry, heq.trans hkey.symm⟩)

theorem remove_of_unbound {key : SocketV4} (h : map.get? key = none) :
    map.remove key = (none, map) := by
  have hall : ∀ entry ∈ map.chain key, entry.2.key ≠ key := by simpa [get?] using h
  have hwhole : (map.chain key).takeWhile (fun entry => entry.2.key ≠ key) = map.chain key :=
    List.takeWhile_eq_self_iff.2 fun entry hentry => by simpa using hall entry hentry
  unfold remove
  dsimp only
  rw [hwhole, List.drop_length]

section

variable {key : SocketV4} {before after : List (Handle × AddressNode)} {handle : Handle}
  {node : AddressNode} (hchain : map.chain key = before ++ (handle, node) :: after)
  (hkey : node.key = key) (hother : ∀ entry ∈ before ++ after, entry.2.key ≠ key)

include hchain hkey hother

/-- Removing a binding takes its node out of the slab once its chain goes past it. -/
theorem remove_of_chain :
    map.remove key =
      (((map.relink key before node.next).nodes.get? handle).map AddressNode.owner,
        { map.relink key before node.next with
          nodes := ((map.relink key before node.next).nodes.remove handle).2 }) := by
  have htake : (map.chain key).takeWhile (fun entry => entry.2.key ≠ key) = before := by
    rw [hchain, List.takeWhile_append_of_pos, List.takeWhile_cons_of_neg]
    · simp
    · simpa using hkey
    · intro entry hentry
      simpa using hother entry (List.mem_append_left _ hentry)
  unfold remove
  dsimp only
  rw [htake, hchain, List.drop_left]
  simp only [Slab.fst_remove]

/-- The nodes after a binding was removed: its own is gone, and the one before it goes on
with its successor. -/
theorem WellFormed.nodes_remove (h : map.WellFormed) (other : Handle) :
    (map.remove key).2.nodes.get? other =
      if other = handle then none
      else if before.getLast?.map Prod.fst = some other then
        (map.nodes.get? other).map fun last => { last with next := node.next }
      else map.nodes.get? other := by
  rw [remove_of_chain hchain hkey hother]
  simp only [relink]
  split
  next previous _ hlast =>
    rw [(h.nodes.modify previous _).get?_remove, Slab.get?_modify, hlast]
    simp [eq_comm]
  next hlast =>
    rw [h.nodes.get?_remove, hlast]
    simp

/-- The chain from which a binding was removed. -/
theorem WellFormed.chained_remove (h : map.WellFormed) :
    Chained (map.remove key).2 key.bucket (redirect before node.next ++ after) := by
  have hold := hchain ▸ h.chained_chain key
  have hget := h.nodes_remove hchain hkey hother
  have hnodup := hold.nodup
  rw [List.map_append, List.map_cons, List.nodup_append, List.nodup_cons] at hnodup
  obtain ⟨hbefore, ⟨hnotin, -⟩, hapart⟩ := hnodup
  have hmap : ∀ {β : Type} (f : Handle × AddressNode → β),
      (∀ handle node next, f (handle, { node with next := next }) = f (handle, node)) →
        (redirect before node.next ++ after).map f = (before ++ after).map f := by
    intro β f hf
    rw [List.map_append, List.map_append, map_redirect f hf]
  have hsub : (before ++ after).Sublist (before ++ (handle, node) :: after) :=
    List.Sublist.append_left (List.sublist_cons_self ..) _
  refine ⟨?_, ?_, ?_, ?_⟩
  · have hheads : (map.remove key).2.heads[key.bucket] =
        if before = [] then node.next else map.heads[key.bucket] := by
      rw [remove_of_chain hchain hkey hother]
      rcases List.eq_nil_or_concat before with rfl | ⟨front, last, rfl⟩
      · simp [relink]
      · simp [relink]
    rw [hheads]
    refine hold.linked.bypass ?_ ?_ ?_
    · intro last hlast
      have hmem : last ∈ before := List.mem_of_getLast? hlast
      have hlive := hold.linked.live last (List.mem_append_left _ hmem)
      have hne : last.1 ≠ handle :=
        hapart _ (List.mem_map_of_mem hmem) _ List.mem_cons_self
      rw [hget, if_neg hne, hlast, Option.map_some, if_pos rfl, hlive, Option.map_some]
    · intro entry hentry
      have hmem := List.dropLast_subset _ hentry
      have hne : entry.1 ≠ handle :=
        hapart _ (List.mem_map_of_mem hmem) _ List.mem_cons_self
      rw [hget, if_neg hne, if_neg]
      intro hlast
      obtain ⟨last, hlast, heq⟩ := Option.map_eq_some_iff.1 hlast
      obtain ⟨front, rfl⟩ := List.getLast?_eq_some_iff.1 hlast
      rw [List.dropLast_concat] at hentry
      rw [List.map_append, List.nodup_append] at hbefore
      exact hbefore.2.2 _ (List.mem_map_of_mem hentry) _ (by simp) heq.symm
    · intro entry hentry
      have hne : entry.1 ≠ handle := fun heq => hnotin (List.mem_map.2 ⟨entry, hentry, heq⟩)
      rw [hget, if_neg hne, if_neg]
      intro hlast
      obtain ⟨last, hlast, heq⟩ := Option.map_eq_some_iff.1 hlast
      refine hapart _ (List.mem_map_of_mem (List.mem_of_getLast? hlast)) _ ?_ heq
      exact List.mem_cons_of_mem _ (List.mem_map_of_mem hentry)
  · rw [hmap _ fun _ _ _ => rfl]
    exact hold.nodup.sublist (hsub.map _)
  · rw [hmap _ fun _ _ _ => rfl]
    exact hold.keys_nodup.sublist (hsub.map _)
  · have hbuckets : ∀ bucket ∈ (redirect before node.next ++ after).map (fun entry =>
        entry.2.key.bucket), bucket = key.bucket := by
      rw [hmap _ fun _ _ _ => rfl]
      intro bucket hbucket
      obtain ⟨entry, hentry, rfl⟩ := List.mem_map.1 hbucket
      exact hold.bucket_eq entry (hsub.subset hentry)
    intro entry hentry
    exact hbuckets _ (List.mem_map.2 ⟨entry, hentry, rfl⟩)

/-- The chains of other buckets stay as they are. -/
theorem WellFormed.chained_remove_of_ne (h : map.WellFormed) {bucket : Fin bucketCount}
    (hne : bucket ≠ key.bucket) {chain : List (Handle × AddressNode)}
    (hold : Chained map bucket chain) : Chained (map.remove key).2 bucket chain := by
  have hmine := hchain ▸ h.chained_chain key
  -- A node of both chains would belong in both buckets.
  have hapart : ∀ entry ∈ chain, ∀ mine ∈ before ++ (handle, node) :: after,
      entry.1 ≠ mine.1 := by
    intro entry hentry mine hmem heq
    have hlive := hold.linked.live entry hentry
    rw [heq, hmine.linked.live mine hmem] at hlive
    have hbucket := hmine.bucket_eq mine hmem
    rw [Option.some.inj hlive, hold.bucket_eq entry hentry] at hbucket
    exact hne hbucket
  have hheads : (map.remove key).2.heads[bucket] = map.heads[bucket] := by
    rw [remove_of_chain hchain hkey hother]
    unfold relink
    split
    · rfl
    · have hval : key.bucket.val ≠ bucket.val := fun heq => hne (Fin.ext heq.symm)
      simp only [Fin.getElem_fin, Vector.getElem_set_ne _ _ hval]
  refine ⟨?_, hold.nodup, hold.keys_nodup, hold.bucket_eq⟩
  rw [hheads]
  refine hold.linked.congr ?_
  intro entry hentry
  rw [h.nodes_remove hchain hkey hother, if_neg, if_neg]
  · intro hlast
    obtain ⟨last, hlast, heq⟩ := Option.map_eq_some_iff.1 hlast
    exact hapart entry hentry last
      (List.mem_append_left _ (List.mem_of_getLast? hlast)) heq.symm
  · exact hapart entry hentry (handle, node) (by simp)

end

theorem WellFormed.remove (h : map.WellFormed) (key : SocketV4) :
    (map.remove key).2.WellFormed := by
  cases hbound : map.get? key with
  | none => rwa [remove_of_unbound hbound]
  | some owner =>
      obtain ⟨before, handle, node, after, hchain, hkey, -, hother⟩ := h.split_chain hbound
      refine ⟨?_, ?_⟩
      · rw [remove_of_chain hchain hkey hother]
        refine Slab.WellFormed.remove ?_ handle
        unfold relink
        split
        · exact h.nodes.modify _ _
        · exact h.nodes
      · intro bucket
        by_cases hsame : bucket = key.bucket
        · exact ⟨_, hsame ▸ h.chained_remove hchain hkey hother⟩
        · obtain ⟨chain, hold⟩ := h.chained bucket
          exact ⟨chain, h.chained_remove_of_ne hchain hkey hother hsame hold⟩

/-- Looking a key up looks at keys and owners only. -/
theorem get?_eq_find?_map (map : AddressMap) (key : SocketV4) :
    map.get? key =
      (((map.chain key).map fun entry => (entry.2.key, entry.2.owner)).find? fun binding =>
        binding.1 = key).map Prod.snd := by
  rw [List.find?_map, Option.map_map]
  rfl

/-- A removed key is not bound; other keys are left alone. -/
theorem WellFormed.get?_remove (h : map.WellFormed) (key other : SocketV4) :
    (map.remove key).2.get? other = if other = key then none else map.get? other := by
  cases hbound : map.get? key with
  | none =>
      rw [remove_of_unbound hbound]
      split
      next hsame => rw [hsame, hbound]
      next => rfl
  | some owner =>
      obtain ⟨before, handle, node, after, hchain, hkey, -, hother⟩ := h.split_chain hbound
      have hwf := h.remove key
      by_cases hbucket : other.bucket = key.bucket
      · have hafter := h.chained_remove hchain hkey hother
        have hsame : map.chain other = map.chain key := by
          refine Chained.chain_eq h.nodes ?_
          rw [hbucket]
          exact h.chained_chain key
        rw [← hbucket] at hafter
        rw [get?_eq_find?_map, hafter.chain_eq hwf.nodes, List.map_append,
          map_redirect (fun entry => (entry.2.key, entry.2.owner)) fun _ _ _ => rfl,
          ← List.map_append]
        by_cases hne : other = key
        · subst hne
          simp only [List.find?_map, Option.map_eq_none_iff, List.find?_eq_none, if_true]
          simpa using hother
        · rw [if_neg hne, get?_eq_find?_map, hsame, hchain]
          have hskip : node.key ≠ other := fun heq => hne (heq.symm.trans hkey)
          simp [List.find?_append, hskip]
      · have hne : other ≠ key := fun heq => hbucket (heq ▸ rfl)
        have hafter := h.chained_remove_of_ne hchain hkey hother hbucket (h.chained_chain other)
        rw [if_neg hne, get?, get?, hafter.chain_eq hwf.nodes]

theorem WellFormed.size_remove (h : map.WellFormed) {key : SocketV4} {owner : Handle}
    (hbound : map.get? key = some owner) : (map.remove key).2.size = map.size - 1 := by
  obtain ⟨before, handle, node, after, hchain, hkey, -, hother⟩ := h.split_chain hbound
  have hlive := (h.chained_chain key).linked.live (handle, node) (by rw [hchain]; simp)
  rw [remove_of_chain hchain hkey hother]
  unfold relink size
  split
  next last _ _ =>
    obtain ⟨node', hlive'⟩ : ∃ node', (map.nodes.modify last fun node' =>
        { node' with next := node.next }).get? handle = some node' := by
      rw [Slab.get?_modify]
      split <;> simp [hlive]
    exact Slab.size_remove hlive'
  next => exact Slab.size_remove hlive

end AddressMap
end Rendezvous
