import WebResource.Proofs.Router.Pending

namespace WebResource.Trie

/-!
# Merging in any order

A node keeps its children and its handlers in maps, and a merge may go through those of its source in any
order, in another one each time. The order decides which pair comes first and what has been merged at a
clash. Whatever it is, what combining two nodes keeps is kept by the merge, whether it is done or stops at
a clash; and the merge stays among the nodes that are below its target and its source.
-/

variable {H M : Type} {t t' : Trie H M} {n m s : Node H M} {i j k : NodeId} {P : NodeId → Prop}

/-! ## Nodes in another order -/

/-- The same node with its children and its handlers for methods in another order. -/
structure Reordered (n m : Node H M) : Prop where
  literals : m.literals.Perm n.literals
  dynamic : m.dynamic = n.dynamic
  patterns : m.patterns = n.patterns
  methods : m.methods.Perm n.methods
  fallback : m.fallback = n.fallback
  middlewares : m.middlewares = n.middlewares

namespace Reordered

theorem refl (n : Node H M) : Reordered n n := ⟨.refl _, rfl, rfl, .refl _, rfl, rfl⟩

variable (h : Reordered n m) (hkeys : (n.literals.map Prod.fst).Nodup)

include h hkeys

theorem keys : (m.literals.map Prod.fst).Nodup := (h.literals.map Prod.fst).nodup_iff.mpr hkeys

/-- The children are the same ones. -/
theorem next (step : Step) : m.next step = n.next step := by
  cases step with
  | literal text =>
      refine Option.ext fun i => ?_
      have hmem := h.literals.mem_iff (a := (text, i))
      exact (literal?_eq_some_iff (h.keys hkeys)).trans (hmem.trans (literal?_eq_some_iff hkeys).symm)
  | dynamic => rw [Node.next, Node.next, h.dynamic]

end Reordered

/-! ## Merges -/

namespace Pending

variable {p : Pending H M} {r : Merged × Trie H M}

/-- How a merge may end. Each node that is a source may be gone through in another order. -/
inductive Merges : Pending H M → Merged × Trie H M → Prop where
  | done {t : Trie H M} : Merges ⟨t, []⟩ (.done, t)
  | same {t : Trie H M} {i : NodeId} {ps : List (NodeId × NodeId)} {r : Merged × Trie H M}
      (hmore : Merges ⟨t, ps⟩ r) : Merges ⟨t, (i, i) :: ps⟩ r
  | clash {t : Trie H M} {i j : NodeId} {s : Node H M} {ps : List (NodeId × NodeId)} {e : RouteTaken}
      (hij : i ≠ j) (hsource : Reordered (t.node j) s) (hclash : clash? (t.node i) s = some e) :
      Merges ⟨t, (i, j) :: ps⟩ (.clash e, t.setNode i (combine (t.node i) s))
  | node {t : Trie H M} {i j : NodeId} {s : Node H M} {ps : List (NodeId × NodeId)}
      {r : Merged × Trie H M} (hij : i ≠ j) (hsource : Reordered (t.node j) s)
      (hfree : clash? (t.node i) s = none)
      (hmore : Merges ⟨t.setNode i (combine (t.node i) s), sharedChildren (t.node i) s ++ ps⟩ r) :
      Merges ⟨t, (i, j) :: ps⟩ r

/-- One of the orders is the one in which the nodes hold what they have. -/
theorem Ends.merges {n : Nat} (h : Ends n p r) : Merges p r := by
  induction h with
  | done => exact .done
  | clash hij hclash => exact .clash hij (.refl _) hclash
  | step h hmore ih =>
      cases h with
      | same => exact .same ih
      | node hij hfree horder =>
          subst horder
          exact .node hij (.refl _) hfree ih

theorem merges_merge (h : (t.merge i j).1 ≠ .endless) : Merges ⟨t, [(i, j)]⟩ (t.merge i j) := by
  obtain ⟨n, hend⟩ := ends_mergeDepth h
  exact hend.merges

/-- What combining two nodes of a region keeps is kept by a merge in the region, however it ends. -/
theorem Merges.preserves {J : Trie H M → Prop}
    (hkeys : ∀ {t}, J t → ∀ k, ((t.node k).literals.map Prod.fst).Nodup)
    (hnext : ∀ {t}, J t → ∀ {k step c}, P k → (t.node k).next step = some c → P c)
    (hstep : ∀ {t}, J t → ∀ {i j s}, P i → P j → Reordered (t.node j) s →
      J (t.setNode i (combine (t.node i) s)))
    (h : Merges p r) (hp : J p.trie) (hps : ∀ x ∈ p.pairs, P x.1 ∧ P x.2) : J r.2 := by
  induction h with
  | done => exact hp
  | same hmore ih => exact ih hp fun x hx => hps x (List.mem_cons_of_mem _ hx)
  | @clash t i j s ps e hij hsource hclash =>
      obtain ⟨hi, hj⟩ := hps (i, j) List.mem_cons_self
      exact hstep hp hi hj hsource
  | @node t i j s ps r hij hsource hfree hmore ih =>
      obtain ⟨hi, hj⟩ := hps (i, j) List.mem_cons_self
      have hsourceKeys := hsource.keys (hkeys hp j)
      refine ih (hstep hp hi hj hsource) fun x hx => ?_
      rcases List.mem_append.mp hx with hx | hx
      · obtain ⟨step, hstep, hstep'⟩ := exists_step_of_shared hsourceKeys hx
        rw [hsource.next (hkeys hp j)] at hstep'
        exact ⟨hnext hp hi hstep, hnext hp hj hstep'⟩
      · exact hps x (List.mem_cons_of_mem _ hx)

end Pending

/-! ## Regions -/

/-- A trie that differs from another one in a region only, out of which no link leads. -/
structure Within (t : Trie H M) (P : NodeId → Prop) (t' : Trie H M) : Prop where
  size : t'.size = t.size
  keys : ∀ k, ((t'.node k).literals.map Prod.fst).Nodup
  lt : ∀ {k}, P k → k < t.size
  frame : ∀ {k}, ¬P k → t'.node k = t.node k
  closed : ∀ {k s c}, P k → (t'.node k).next s = some c → P c

theorem Within.rfl (ht : Sound t) (hlt : ∀ {k}, P k → k < t.size)
    (hclosed : ∀ {k s c}, P k → (t.node k).next s = some c → P c) : Within t P t :=
  ⟨Eq.refl _, ht.keys, hlt, fun _ => Eq.refl _, hclosed⟩

theorem Within.combine (h : Within t P t') (hi : P i) (hj : P j) (hsource : Reordered (t'.node j) s) :
    Within t P (t'.setNode i (combine (t'.node i) s)) := by
  have hlt : i < t'.size := h.size ▸ h.lt hi
  have hkeys := hsource.keys (h.keys j)
  constructor
  · rw [size_setNode]
    exact h.size
  · intro k
    rw [node_setNode hlt]
    split
    · exact keys_combine hkeys (h.keys i)
    · exact h.keys k
  · exact h.lt
  · intro k hk
    rw [node_setNode_of_ne]
    · exact h.frame hk
    · rintro rfl
      exact hk hi
  · intro k step c hk hc
    rw [node_setNode hlt] at hc
    split at hc
    · rw [next_combine hkeys, hsource.next (h.keys j), Option.or_eq_some_iff] at hc
      rcases hc with hc | ⟨-, hc⟩
      · exact h.closed hi hc
      · exact h.closed hj hc
    · exact h.closed hk hc

/-- A merge stays in every region that its target and its source are in. -/
theorem Within.merges {r : Merged × Trie H M} (ht : Sound t) (hlt : ∀ {k}, P k → k < t.size)
    (hclosed : ∀ {k s c}, P k → (t.node k).next s = some c → P c) (hi : P i) (hj : P j)
    (hmerges : Pending.Merges ⟨t, [(i, j)]⟩ r) : Within t P r.2 := by
  apply hmerges.preserves (P := P) (J := Within t P)
  · intro t' h
    exact h.keys
  · intro t' h k step c
    exact h.closed
  · intro t' h i j s
    exact h.combine
  · exact .rfl ht hlt hclosed
  · intro x hx
    rw [List.mem_singleton.mp hx]
    exact ⟨hi, hj⟩

/-- The nodes below one of two nodes. -/
def Under (t : Trie H M) (i j k : NodeId) : Prop :=
  ∃ pos, t.locate i pos = some k ∨ t.locate j pos = some k

theorem within_merges_under {r : Merged × Trie H M} (ht : Sound t) (hi : i < t.size) (hj : j < t.size)
    (hmerges : Pending.Merges ⟨t, [(i, j)]⟩ r) : Within t (t.Under i j) r.2 := by
  refine Within.merges ht ?_ ?_ ⟨[], Or.inl (Eq.refl _)⟩ ⟨[], Or.inr (Eq.refl _)⟩ hmerges
  · rintro k ⟨pos, hpos | hpos⟩
    · exact ht.lt_locate hi hpos
    · exact ht.lt_locate hj hpos
  · rintro k step c ⟨pos, hpos | hpos⟩ hc
    · refine ⟨pos ++ [step], Or.inl ?_⟩
      rw [locate_concat, hpos, Option.bind_some, hc]
    · refine ⟨pos ++ [step], Or.inr ?_⟩
      rw [locate_concat, hpos, Option.bind_some, hc]

end WebResource.Trie
