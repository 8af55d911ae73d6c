import Mathlib.Data.Set.Card
import WebResource.Proofs.Router.Pending

namespace WebResource.Trie

/-!
# Merging with a tree

A merge that takes its sources from a tree merges each node of it once at most, and so does one that
merges into the nodes of a tree which has no node in common with the source. So it ends after as many
pairs as the tree has nodes, in whatever order the children of a node are merged.
-/

variable {H M : Type} {t t' : Trie H M} {i j k c : NodeId} {ps : List (NodeId × NodeId)}

/-- The nodes of trees with some roots: no link leads out of them or to a root, and no two links lead to
the same node. -/
structure Forest (t : Trie H M) (nodes : Finset NodeId) (roots : List NodeId) : Prop where
  root : ∀ k ∈ roots, k ∈ nodes
  nodup : roots.Nodup
  closed : ∀ {k step c}, k ∈ nodes → (t.node k).next step = some c → c ∈ nodes
  apart : ∀ {k step c}, k ∈ nodes → (t.node k).next step = some c → c ∉ roots
  unique : ∀ {k k' step step' c}, k ∈ nodes → k' ∈ nodes → (t.node k).next step = some c →
    (t.node k').next step' = some c → k = k' ∧ step = step'

/-- A root is cut off. Some of its children are roots then; links to the others may be passed on to one
node. -/
theorem Forest.cut {nodes : Finset NodeId} {roots children : List NodeId}
    (h : Forest t nodes (j :: roots)) (hnodup : children.Nodup)
    (hchildren : ∀ c ∈ children, ∃ step, (t.node j).next step = some c)
    (hnext : ∀ {k step c}, k ∈ nodes.erase j → (t'.node k).next step = some c →
      (t.node k).next step = some c ∨ k = i ∧ (t.node j).next step = some c ∧ c ∉ children) :
    Forest t' (nodes.erase j) (children ++ roots) := by
  have hj : j ∈ nodes := h.root j List.mem_cons_self
  obtain ⟨hroots, hrest⟩ := List.nodup_cons.mp h.nodup
  have hlater {k : NodeId} {step : Step} {c : NodeId} (hk : k ∈ nodes)
      (hc : (t.node k).next step = some c) : c ∈ nodes.erase j ∧ c ∉ roots := by
    have hnew := h.apart hk hc
    refine ⟨Finset.mem_erase.mpr ⟨?_, h.closed hk hc⟩, fun hmem => hnew (List.mem_cons_of_mem _ hmem)⟩
    rintro rfl
    exact hnew List.mem_cons_self
  constructor
  · intro k hk
    rcases List.mem_append.mp hk with hk | hk
    · obtain ⟨step, hc⟩ := hchildren k hk
      exact (hlater hj hc).1
    · refine Finset.mem_erase.mpr ⟨?_, h.root k (List.mem_cons_of_mem _ hk)⟩
      rintro rfl
      exact hroots hk
  · refine List.nodup_append.mpr ⟨hnodup, hrest, ?_⟩
    rintro c hc _ hc' rfl
    obtain ⟨step, hnext⟩ := hchildren c hc
    exact (hlater hj hnext).2 hc'
  · intro k step c hk hc
    rcases hnext hk hc with hold | ⟨-, hnew, -⟩
    · exact (hlater (Finset.mem_of_mem_erase hk) hold).1
    · exact (hlater hj hnew).1
  · intro k step c hk hc hmem
    obtain ⟨hkj, hk'⟩ := Finset.mem_erase.mp hk
    rcases hnext hk hc with hold | ⟨-, hnew, hout⟩
    · rcases List.mem_append.mp hmem with hmem | hmem
      · obtain ⟨step', hc'⟩ := hchildren c hmem
        exact hkj (h.unique hk' hj hold hc').1
      · exact (hlater hk' hold).2 hmem
    · rcases List.mem_append.mp hmem with hmem | hmem
      · exact hout hmem
      · exact (hlater hj hnew).2 hmem
  · intro k k' step step' c hk hk' hc hc'
    obtain ⟨hkj, hmem⟩ := Finset.mem_erase.mp hk
    obtain ⟨hkj', hmem'⟩ := Finset.mem_erase.mp hk'
    rcases hnext hk hc with hold | ⟨hki, hnew, -⟩
    · rcases hnext hk' hc' with hold' | ⟨-, hnew', -⟩
      · exact h.unique hmem hmem' hold hold'
      · exact absurd (h.unique hmem hj hold hnew').1 hkj
    · rcases hnext hk' hc' with hold' | ⟨hki', hnew', -⟩
      · exact absurd (h.unique hmem' hj hold' hnew).1 hkj'
      · exact ⟨hki.trans hki'.symm, (h.unique hj hj hnew hnew').2⟩

theorem Forest.tail {nodes : Finset NodeId} {roots : List NodeId} (h : Forest t nodes (j :: roots)) :
    Forest t (nodes.erase j) roots := by
  have hcut : Forest t (nodes.erase j) ([] ++ roots) :=
    h.cut (i := j) List.nodup_nil nofun fun _ hc => Or.inl hc
  exact hcut

theorem Forest.perm {nodes : Finset NodeId} {roots roots' : List NodeId} (h : Forest t nodes roots)
    (hroots : roots'.Perm roots) : Forest t nodes roots' where
  root k hk := h.root k (hroots.mem_iff.mp hk)
  nodup := hroots.nodup_iff.mpr h.nodup
  closed := h.closed
  apart hk hc hmem := h.apart hk hc (hroots.mem_iff.mp hmem)
  unique := h.unique

/-- The nodes below a node, and the node itself. -/
def descendants (t : Trie H M) (i : NodeId) : Set NodeId := {k | ∃ pos, t.locate i pos = some k}

theorem IsTree.forest (h : IsTree t j) : ∃ nodes : Finset NodeId,
    ↑nodes = t.descendants j ∧ nodes.card = (t.descendants j).ncard ∧ Forest t nodes [j] := by
  have hfinite : (t.descendants j).Finite := by
    refine (Finset.range t.size).finite_toSet.subset ?_
    rintro k ⟨pos, hk⟩
    exact Finset.mem_coe.mpr (Finset.mem_range.mpr (h.lt hk))
  have hway {pos : Position} {k c : NodeId} {step : Step} (hpos : t.locate j pos = some k)
      (hc : (t.node k).next step = some c) : t.locate j (pos ++ [step]) = some c := by
    rw [locate_concat, hpos, Option.bind_some, hc]
  refine ⟨hfinite.toFinset, hfinite.coe_toFinset, (Set.ncard_eq_toFinset_card _ hfinite).symm, ?_⟩
  constructor
  · intro k hk
    rw [List.mem_singleton.mp hk, hfinite.mem_toFinset]
    exact ⟨[], rfl⟩
  · exact List.nodup_singleton j
  · intro k step c hk hc
    obtain ⟨pos, hpos⟩ := hfinite.mem_toFinset.mp hk
    exact hfinite.mem_toFinset.mpr ⟨_, hway hpos hc⟩
  · intro k step c hk hc hmem
    obtain ⟨pos, hpos⟩ := hfinite.mem_toFinset.mp hk
    rw [List.mem_singleton.mp hmem] at hc
    have hroot : pos ++ [step] = [] := h.unique (hway hpos hc) rfl
    exact List.append_ne_nil_of_right_ne_nil pos (List.cons_ne_nil step []) hroot
  · intro k k' step step' c hk hk' hc hc'
    obtain ⟨pos, hpos⟩ := hfinite.mem_toFinset.mp hk
    obtain ⟨pos', hpos'⟩ := hfinite.mem_toFinset.mp hk'
    obtain ⟨rfl, hsteps⟩ := List.append_inj' (h.unique (hway hpos hc) (hway hpos' hc')) rfl
    exact ⟨Option.some.inj (hpos.symm.trans hpos'), List.head_eq_of_cons_eq hsteps⟩

section Nodes

variable {nodes : Finset NodeId} (hkeys : ((t.node j).literals.map Prod.fst).Nodup)

include hkeys

/-- A node gets the links of its source that it does not have. -/
theorem next_setNode_combine {step : Step}
    (hc : ((t.setNode i (combine (t.node i) (t.node j))).node k).next step = some c) :
    (t.node k).next step = some c ∨
      k = i ∧ (t.node i).next step = none ∧ (t.node j).next step = some c := by
  rcases node_setNode_cases t i (combine (t.node i) (t.node j)) k with hk | ⟨rfl, hk⟩
  · rw [hk] at hc
    exact Or.inl hc
  · rw [hk, next_combine hkeys, Option.or_eq_some_iff] at hc
    rcases hc with hc | hc
    · exact Or.inl hc
    · exact Or.inr ⟨rfl, hc⟩

theorem nodup_sharedChildren {f : NodeId × NodeId → NodeId}
    (hf : ∀ {step step' x y}, (step, x) ∈ common (t.node i) (t.node j) →
      (step', y) ∈ common (t.node i) (t.node j) → f x = f y → step = step') :
    ((sharedChildren (t.node i) (t.node j)).map f).Nodup := by
  rw [sharedChildren_eq _ hkeys, List.map_map, List.Nodup, List.pairwise_map]
  exact (pairwise_common hkeys).imp_of_mem fun hx hy hne hsame => hne (hf hx hy hsame)

section Combine

variable {children : List (NodeId × NodeId)}
  (horder : children.Perm (sharedChildren (t.node i) (t.node j)))

include horder

/-- A link that a node gets takes the place of the one that its source has had. -/
theorem Forest.combine_source (h : Forest t nodes (((i, j) :: ps).map Prod.snd)) :
    Forest (t.setNode i (combine (t.node i) (t.node j))) (nodes.erase j)
      ((children ++ ps).map Prod.snd) := by
  have hj : j ∈ nodes := h.root j List.mem_cons_self
  have hunique {step step' : Step} {c : NodeId} (hc : (t.node j).next step = some c)
      (hc' : (t.node j).next step' = some c) : step = step' := (h.unique hj hj hc hc').2
  refine Forest.perm ?_ ((horder.append_right ps).map Prod.snd)
  rw [List.map_append]
  apply h.cut (i := i)
  · refine nodup_sharedChildren hkeys ?_
    rintro step step' ⟨a, b⟩ ⟨a', b'⟩ hx hy rfl
    exact hunique ((mem_common hkeys).mp hx).2 ((mem_common hkeys).mp hy).2
  · intro c hc
    obtain ⟨x, hx, rfl⟩ := List.mem_map.mp hc
    obtain ⟨step, -, hstep⟩ := exists_step_of_shared hkeys hx
    exact ⟨step, hstep⟩
  · intro k step c _ hc
    rcases next_setNode_combine hkeys hc with hold | ⟨hki, hnone, hnew⟩
    · exact Or.inl hold
    · refine Or.inr ⟨hki, hnew, ?_⟩
      intro hmem
      obtain ⟨x, hx, rfl⟩ := List.mem_map.mp hmem
      obtain ⟨step', hi, hj'⟩ := exists_step_of_shared hkeys hx
      rw [← hunique hnew hj', hnone] at hi
      cases hi

/-- A node that is merged into is not in a tree any more. -/
theorem Forest.combine_target (h : Forest t nodes (((i, j) :: ps).map Prod.fst)) :
    Forest (t.setNode i (combine (t.node i) (t.node j))) (nodes.erase i)
      ((children ++ ps).map Prod.fst) := by
  have hi : i ∈ nodes := h.root i List.mem_cons_self
  refine Forest.perm ?_ ((horder.append_right ps).map Prod.fst)
  rw [List.map_append]
  apply h.cut (i := i)
  · refine nodup_sharedChildren hkeys ?_
    rintro step step' ⟨a, b⟩ ⟨a', b'⟩ hx hy rfl
    exact (h.unique hi hi ((mem_common hkeys).mp hx).1 ((mem_common hkeys).mp hy).1).2
  · intro c hc
    obtain ⟨x, hx, rfl⟩ := List.mem_map.mp hc
    obtain ⟨step, hstep, -⟩ := exists_step_of_shared hkeys hx
    exact ⟨step, hstep⟩
  · intro k step c hk hc
    rw [node_setNode_of_ne (Finset.ne_of_mem_erase hk).symm] at hc
    exact Or.inl hc

end Combine

end Nodes

/-- A tree can be merged into any node, also one of its own: each of its nodes is merged once at most. -/
theorem IsTree.endsWithin_source (h : IsTree t j) (i : NodeId) :
    Pending.EndsWithin List.Perm (t.descendants j).ncard ⟨t, [(i, j)]⟩ := by
  obtain ⟨nodes, hnodes, hcard, hforest⟩ := h.forest
  rw [← hcard]
  apply Pending.endsWithin_of_spending (J := fun p nodes =>
    Forest p.trie nodes (p.pairs.map Prod.snd) ∧
      ∀ k ∈ nodes, ((p.trie.node k).literals.map Prod.fst).Nodup)
  · rintro t i j ps nodes ⟨hforest, hkeys⟩
    have hj : j ∈ nodes := hforest.root j List.mem_cons_self
    refine ⟨j, hj, ?_⟩
    intro q hstep
    cases hstep with
    | same => exact ⟨hforest.tail, fun k hk => hkeys k (Finset.mem_of_mem_erase hk)⟩
    | node hij hfree horder =>
        refine ⟨hforest.combine_source (hkeys j hj) horder, ?_⟩
        intro k hk
        have hk := hkeys k (Finset.mem_of_mem_erase hk)
        rcases node_setNode_cases t i (combine (t.node i) (t.node j)) k with hnode | ⟨rfl, hnode⟩
        · rw [hnode]
          exact hk
        · rw [hnode]
          exact keys_combine (hkeys j hj) hk
  · refine ⟨hforest, ?_⟩
    intro k hk
    obtain ⟨pos, hpos⟩ : k ∈ t.descendants j := hnodes ▸ Finset.mem_coe.mpr hk
    exact h.keys hpos

/-- Any node can be merged into a tree that shares no node with it: each node of the tree is merged into
once at most. -/
theorem IsTree.endsWithin_target (h : IsTree t i) (hapart : Apart t i j)
    (hkeys : ∀ k, ((t.node k).literals.map Prod.fst).Nodup) :
    Pending.EndsWithin List.Perm (t.descendants i).ncard ⟨t, [(i, j)]⟩ := by
  obtain ⟨nodes, hnodes, hcard, hforest⟩ := h.forest
  rw [← hcard]
  apply Pending.endsWithin_of_spending (J := fun p nodes =>
    Forest p.trie nodes (p.pairs.map Prod.fst) ∧ (∀ k ∈ nodes, k ∉ t.descendants j) ∧
      (∀ x ∈ p.pairs, x.2 ∈ t.descendants j) ∧ ∀ k ∈ t.descendants j, p.trie.node k = t.node k)
  · rintro u i j' ps nodes ⟨hforest, houtside, hsources, hsame⟩
    have hi : i ∈ nodes := hforest.root i List.mem_cons_self
    have hj' := hsources (i, j') List.mem_cons_self
    refine ⟨i, hi, ?_⟩
    intro q hstep
    cases hstep with
    | same => exact absurd hj' (houtside i hi)
    | node hij hfree horder =>
        have hkeys' : ((u.node j').literals.map Prod.fst).Nodup := hsame j' hj' ▸ hkeys j'
        refine ⟨hforest.combine_target hkeys' horder, ?_, ?_, ?_⟩
        · intro k hk
          exact houtside k (Finset.mem_of_mem_erase hk)
        · intro x hx
          rcases List.mem_append.mp hx with hx | hx
          · obtain ⟨step, -, hstep⟩ := exists_step_of_shared hkeys' (horder.mem_iff.mp hx)
            obtain ⟨pos, hpos⟩ := hj'
            rw [hsame j' ⟨pos, hpos⟩] at hstep
            refine ⟨pos ++ [step], ?_⟩
            rw [locate_concat, hpos, Option.bind_some, hstep]
          · exact hsources x (List.mem_cons_of_mem _ hx)
        · intro k hk
          rw [node_setNode_of_ne]
          · exact hsame k hk
          · rintro rfl
            exact houtside i hi hk
  · refine ⟨hforest, ?_, ?_, fun _ _ => rfl⟩
    · rintro k hk ⟨pos', hpos'⟩
      obtain ⟨pos, hpos⟩ : k ∈ t.descendants i := hnodes ▸ Finset.mem_coe.mpr hk
      exact hapart pos pos' k hpos hpos'
    · intro x hx
      rw [List.mem_singleton.mp hx]
      exact ⟨[], rfl⟩

end WebResource.Trie
