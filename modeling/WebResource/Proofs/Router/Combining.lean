import WebResource.Proofs.Router.Merging
import WebResource.Proofs.Router.Opening

namespace WebResource.Trie

/-!
# Merging in any graph

A merge combines nodes one after the other: it takes a pair of nodes to the pairs of their children.
-/

variable {H M : Type} {t t' t'' : Trie H M} {i j : NodeId}

/-- A merge is over at once if the nodes have no step in common. -/
theorem merge_of_common_nil (hij : i ≠ j) (hkeys : ((t.node j).literals.map Prod.fst).Nodup)
    (hcommon : common (t.node i) (t.node j) = []) :
    t.merge i j = ((mergeContent (mergeChildren (t.node i) (t.node j)) (t.node j)).1.elim .done .clash,
      t.setNode i (combine (t.node i) (t.node j))) := by
  rw [merge, mergeLimit, mergeDepth_succ hij hkeys, hcommon, List.map_nil, combine]
  generalize mergeContent (mergeChildren (t.node i) (t.node j)) (t.node j) = r
  obtain ⟨_ | e, n⟩ := r
  · simp only [mergeDepth.mergePairs, Option.elim_none]
  · simp only [Option.elim_some]

/-! ## Steps of a merge -/

/-- The pairs of children that two nodes both have. -/
def sharedChildren (n s : Node H M) : List (NodeId × NodeId) :=
  (mergeLiterals n s.literals).2 ++ (mergeDynamic (mergeLiterals n s.literals).1 s.dynamic).2

/-- What stops the merge of a node into another one. -/
def clash? (n s : Node H M) : Option RouteTaken := (mergeContent (mergeChildren n s) s).1

theorem sharedChildren_eq (n : Node H M) {s : Node H M} (hkeys : (s.literals.map Prod.fst).Nodup) :
    sharedChildren n s = (common n s).map Prod.snd := pairs_eq n hkeys

theorem exists_step_of_shared {n s : Node H M} (hkeys : (s.literals.map Prod.fst).Nodup)
    {x : NodeId × NodeId} (hx : x ∈ sharedChildren n s) :
    ∃ step, n.next step = some x.1 ∧ s.next step = some x.2 := by
  rw [sharedChildren_eq n hkeys] at hx
  exact exists_step hkeys hx

/-- The first step of a merge, whatever the keys of the nodes. -/
theorem mergeDepth_eq (depth : Nat) (t : Trie H M) (hij : i ≠ j) :
    mergeDepth (depth + 1) t i j =
      match clash? (t.node i) (t.node j) with
      | some e => (.clash e, t.setNode i (combine (t.node i) (t.node j)))
      | none => mergeDepth.mergePairs depth (t.setNode i (combine (t.node i) (t.node j)))
          (sharedChildren (t.node i) (t.node j)) := by
  rw [mergeDepth, if_neg hij]
  simp only [clash?, combine, mergeChildren, sharedChildren]
  generalize mergeContent _ (t.node j) = r
  obtain ⟨_ | e, n⟩ := r
  · rfl
  · rfl

/-- Nodes that are combined one after the other. What is combined with a clash is the last. -/
inductive Combines : Trie H M → Merged → Trie H M → Prop where
  | done (t : Trie H M) : Combines t .done t
  | endless (t : Trie H M) : Combines t .endless t
  | clash {t : Trie H M} {i j : NodeId} {e : RouteTaken}
      (h : (mergeContent (mergeChildren (t.node i) (t.node j)) (t.node j)).1 = some e) :
      Combines t (.clash e) (t.setNode i (combine (t.node i) (t.node j)))
  | step {t t' : Trie H M} {i j : NodeId} {result : Merged}
      (h : (mergeContent (mergeChildren (t.node i) (t.node j)) (t.node j)).1 = none)
      (hmore : Combines (t.setNode i (combine (t.node i) (t.node j))) result t') : Combines t result t'

theorem Combines.trans {result : Merged} (h : Combines t .done t') (h' : Combines t' result t'') :
    Combines t result t'' := by
  generalize hdone : Merged.done = r at h
  induction h with
  | done t => exact h'
  | endless t => cases hdone
  | clash h => cases hdone
  | step h hmore ih => exact .step h (ih h' hdone)

theorem combines_mergePairs {depth : Nat}
    (hdepth : ∀ t : Trie H M, ∀ i j, Combines t (mergeDepth depth t i j).1 (mergeDepth depth t i j).2)
    (t : Trie H M) (ps : List (NodeId × NodeId)) :
    Combines t (mergeDepth.mergePairs depth t ps).1 (mergeDepth.mergePairs depth t ps).2 := by
  induction ps generalizing t with
  | nil =>
      rw [mergeDepth.mergePairs]
      exact .done t
  | cons p ps ih =>
      have hone := hdepth t p.1 p.2
      rw [mergeDepth.mergePairs]
      generalize mergeDepth depth t p.1 p.2 = r at hone
      obtain ⟨result, t₁⟩ := r
      cases result with
      | done => exact hone.trans (ih t₁)
      | clash e => exact hone
      | endless => exact hone

theorem combines_mergeDepth (depth : Nat) (t : Trie H M) (i j : NodeId) :
    Combines t (mergeDepth depth t i j).1 (mergeDepth depth t i j).2 := by
  induction depth generalizing t i j with
  | zero =>
      rw [mergeDepth]
      exact .endless t
  | succ depth ih =>
      by_cases hij : i = j
      · rw [mergeDepth, if_pos hij]
        exact .done t
      · rw [mergeDepth_eq depth t hij]
        cases hclash : clash? (t.node i) (t.node j) with
        | none => exact .step hclash (combines_mergePairs ih _ _)
        | some e => exact .clash hclash

end WebResource.Trie
