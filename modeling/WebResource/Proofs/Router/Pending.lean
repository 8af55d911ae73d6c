import Mathlib.Data.Finset.Card
import Mathlib.Logic.Relation
import WebResource.Proofs.Router.Combining

namespace WebResource.Trie

/-!
# Merging node by node

A merge without a limit: the pairs of nodes that are still to be merged, one taken after the other,
with the children that both nodes have put in its place, in the order in which a node holds them or in
any other one. If a merge with a limit does not give up, the one without ends with the same. If it gives
up, the other one descends as many levels.
-/

variable {H M : Type} {t t' : Trie H M} {i j : NodeId} {ps behind : List (NodeId × NodeId)}
  {depth n m : Nat}

/-- A merge under way: the trie, and the pairs that are still to be merged, the next one first. -/
structure Pending (H M : Type) where
  trie : Trie H M
  pairs : List (NodeId × NodeId)

namespace Pending

/-- In which order the pairs of children may be merged, given the one in which the node holds them. -/
abbrev Order := List (NodeId × NodeId) → List (NodeId × NodeId) → Prop

variable {order : Order} {p q : Pending H M} {r r' : Merged × Trie H M} {x y z : Trie H M × NodeId × NodeId}

/-- One pair is merged. A node is merged into itself by leaving it as it is. -/
inductive Advances (order : Order) : Pending H M → Pending H M → Prop where
  | same {t : Trie H M} {i : NodeId} {ps : List (NodeId × NodeId)} :
      Advances order ⟨t, (i, i) :: ps⟩ ⟨t, ps⟩
  | node {t : Trie H M} {i j : NodeId} {children ps : List (NodeId × NodeId)} (hij : i ≠ j)
      (hfree : clash? (t.node i) (t.node j) = none)
      (horder : order children (sharedChildren (t.node i) (t.node j))) :
      Advances order ⟨t, (i, j) :: ps⟩ ⟨t.setNode i (combine (t.node i) (t.node j)), children ++ ps⟩

/-- Any number of pairs are merged. -/
abbrev Reaches (order : Order) : Pending H M → Pending H M → Prop :=
  Relation.ReflTransGen (Advances order)

/-- A merge with further pairs behind its own. -/
def before (p : Pending H M) (behind : List (NodeId × NodeId)) : Pending H M :=
  ⟨p.trie, p.pairs ++ behind⟩

theorem Advances.before (h : Advances order p q) (behind : List (NodeId × NodeId)) :
    Advances order (p.before behind) (q.before behind) := by
  cases h with
  | same => exact .same
  | node hij hfree horder =>
      simp only [Pending.before, List.append_assoc]
      exact .node hij hfree horder

theorem Reaches.before (h : Reaches order p q) (behind : List (NodeId × NodeId)) :
    Reaches order (p.before behind) (q.before behind) :=
  h.lift (·.before behind) fun _ _ hstep => hstep.before behind

/-- The merge of a pair comes to another pair, among those that take its place. -/
def Descends (order : Order) (x y : Trie H M × NodeId × NodeId) : Prop :=
  ∃ behind, Relation.TransGen (Advances order) ⟨x.1, [x.2]⟩ ⟨y.1, y.2 :: behind⟩

theorem Descends.before (h : Descends order x y) (behind : List (NodeId × NodeId)) :
    ∃ behind', Relation.TransGen (Advances order) ⟨x.1, x.2 :: behind⟩ ⟨y.1, y.2 :: behind'⟩ := by
  obtain ⟨behind', hrun⟩ := h
  exact ⟨behind' ++ behind, hrun.lift (·.before behind) fun _ _ hstep => hstep.before behind⟩

theorem Descends.trans (h : Descends order x y) (h' : Descends order y z) : Descends order x z := by
  obtain ⟨behind, hfirst⟩ := h
  obtain ⟨behind', hsecond⟩ := h'.before behind
  exact ⟨behind', hfirst.trans hsecond⟩

/-! ## Merges in the order of their nodes -/

/-- How a merge ends, after so many pairs, if children are merged in the order in which a node holds
them. -/
inductive Ends : Nat → Pending H M → Merged × Trie H M → Prop where
  | done {t : Trie H M} : Ends 0 ⟨t, []⟩ (.done, t)
  | clash {t : Trie H M} {i j : NodeId} {ps : List (NodeId × NodeId)} {e : RouteTaken} (hij : i ≠ j)
      (hclash : clash? (t.node i) (t.node j) = some e) :
      Ends 1 ⟨t, (i, j) :: ps⟩ (.clash e, t.setNode i (combine (t.node i) (t.node j)))
  | step {p q : Pending H M} {n : Nat} {r : Merged × Trie H M} (h : Advances Eq p q)
      (hmore : Ends n q r) : Ends (n + 1) p r

theorem Ends.ne_endless (h : Ends n p r) : r.1 ≠ .endless := by
  induction h with
  | done => exact nofun
  | clash hij hclash => exact nofun
  | step h hmore ih => exact ih

theorem Ends.tail (h : Ends n p r) (hstep : Advances Eq p q) : ∃ m, n = m + 1 ∧ Ends m q r := by
  cases h with
  | done => cases hstep
  | clash hij hclash =>
      cases hstep with
      | same => exact absurd rfl hij
      | node hij hfree horder => cases hfree.symm.trans hclash
  | step h hmore =>
      refine ⟨_, rfl, ?_⟩
      cases h with
      | same =>
          cases hstep with
          | same => exact hmore
          | node hij hfree horder => exact absurd rfl hij
      | node hij hfree horder =>
          cases hstep with
          | same => exact absurd rfl hij
          | node hij' hfree' horder' =>
              rw [horder', ← horder]
              exact hmore

theorem Ends.unique (h : Ends n p r) (h' : Ends m p r') : r = r' := by
  induction h generalizing m with
  | done =>
      cases h' with
      | done => rfl
      | step h hmore => cases h
  | clash hij hclash =>
      cases h' with
      | clash hij' hclash' =>
          cases hclash.symm.trans hclash'
          rfl
      | step h hmore =>
          cases h with
          | same => exact absurd rfl hij
          | node hij hfree horder => cases hfree.symm.trans hclash
  | step h hmore ih =>
      obtain ⟨m, -, hend⟩ := h'.tail h
      exact ih hend

theorem Reaches.ends (h : Reaches Eq p q) (hends : ∃ n, Ends n q r) : ∃ n, Ends n p r := by
  induction h using Relation.ReflTransGen.head_induction_on with
  | refl => exact hends
  | head hstep _ ih =>
      obtain ⟨n, hend⟩ := ih
      exact ⟨n + 1, .step hstep hend⟩

theorem Ends.of_reaches (h : Ends n p r) (hrun : Reaches Eq p q) : ∃ m ≤ n, Ends m q r := by
  induction hrun with
  | refl => exact ⟨n, Nat.le_refl n, h⟩
  | tail _ hstep ih =>
      obtain ⟨_, hm, hend⟩ := ih
      obtain ⟨m, rfl, hrest⟩ := hend.tail hstep
      exact ⟨m, Nat.le_of_succ_le hm, hrest⟩

theorem Ends.of_transGen (h : Ends n p r) (hrun : Relation.TransGen (Advances Eq) p q) :
    ∃ m < n, Ends m q r := by
  obtain ⟨q', hrun, hlast⟩ := Relation.TransGen.tail'_iff.mp hrun
  obtain ⟨_, hm, hend⟩ := h.of_reaches hrun
  obtain ⟨m, rfl, hrest⟩ := hend.tail hlast
  exact ⟨m, hm, hrest⟩

/-- What is behind is reached when the rest is done. -/
theorem Ends.reaches (h : Ends n p r) (hdone : r.1 = .done) (behind : List (NodeId × NodeId)) :
    Reaches Eq (p.before behind) ⟨r.2, behind⟩ := by
  induction h with
  | done => exact .refl
  | clash hij hclash => cases hdone
  | step h hmore ih => exact .head (h.before behind) (ih hdone)

/-- A clash stops the merge, whatever is behind. -/
theorem Ends.before (h : Ends n p r) (hclash : r.1 ≠ .done) (behind : List (NodeId × NodeId)) :
    Ends n (p.before behind) r := by
  induction h with
  | done => exact absurd rfl hclash
  | clash hij htaken => exact .clash hij htaken
  | step h hmore ih => exact .step (h.before behind) (ih hclash)

/-! ## Merges with a limit -/

theorem ends_mergePairs
    (hdepth : ∀ {t : Trie H M} {i j}, (mergeDepth depth t i j).1 ≠ .endless →
      ∃ n, Ends n ⟨t, [(i, j)]⟩ (mergeDepth depth t i j))
    (h : (mergeDepth.mergePairs depth t ps).1 ≠ .endless) :
    ∃ n, Ends n ⟨t, ps⟩ (mergeDepth.mergePairs depth t ps) := by
  induction ps generalizing t with
  | nil =>
      rw [mergeDepth.mergePairs]
      exact ⟨0, .done⟩
  | cons p ps ih =>
      obtain ⟨i, j⟩ := p
      have hone := hdepth (t := t) (i := i) (j := j)
      rw [mergeDepth.mergePairs] at h ⊢
      generalize mergeDepth depth t i j = r at h hone
      obtain ⟨result, t'⟩ := r
      cases result with
      | done =>
          obtain ⟨n, hfirst⟩ := hone (by simp)
          exact (hfirst.reaches rfl ps).ends (ih h)
      | clash e =>
          obtain ⟨n, hfirst⟩ := hone (by simp)
          exact ⟨n, hfirst.before (by simp) ps⟩
      | endless => exact absurd rfl h

/-- A merge that does not give up has the end of the merge without a limit. -/
theorem ends_mergeDepth (h : (mergeDepth depth t i j).1 ≠ .endless) :
    ∃ n, Ends n ⟨t, [(i, j)]⟩ (mergeDepth depth t i j) := by
  induction depth generalizing t i j with
  | zero =>
      rw [mergeDepth] at h
      exact absurd rfl h
  | succ depth ih =>
      by_cases hij : i = j
      · subst hij
        rw [mergeDepth, if_pos rfl]
        exact ⟨1, .step .same .done⟩
      · rw [mergeDepth_eq depth t hij] at h ⊢
        cases hclash : clash? (t.node i) (t.node j) with
        | some e => exact ⟨1, .clash hij hclash⟩
        | none =>
            rw [hclash] at h
            obtain ⟨n, hend⟩ := ends_mergePairs ih h
            refine ⟨n + 1, .step (.node hij hclash rfl) ?_⟩
            rw [List.append_nil]
            exact hend

theorem exists_pair_of_endless (h : (mergeDepth.mergePairs depth t ps).1 = .endless) :
    ∃ t' i j behind,
      Reaches Eq ⟨t, ps⟩ ⟨t', (i, j) :: behind⟩ ∧ (mergeDepth depth t' i j).1 = .endless := by
  induction ps generalizing t with
  | nil =>
      rw [mergeDepth.mergePairs] at h
      cases h
  | cons p ps ih =>
      obtain ⟨i, j⟩ := p
      have hone (hends : (mergeDepth depth t i j).1 ≠ .endless) := ends_mergeDepth hends
      rw [mergeDepth.mergePairs] at h
      generalize hr : mergeDepth depth t i j = r at h hone
      obtain ⟨result, t₁⟩ := r
      cases result with
      | done =>
          obtain ⟨n, hfirst⟩ := hone (by simp)
          obtain ⟨t', i', j', behind, hreaches, hendless⟩ := ih h
          exact ⟨t', i', j', behind, (hfirst.reaches rfl ps).trans hreaches, hendless⟩
      | clash e => cases h
      | endless => exact ⟨t, i, j, ps, .refl, congrArg Prod.fst hr⟩

/-- A merge that gives up descends to one that gives up with a level less. -/
theorem exists_descends_of_endless (h : (mergeDepth (depth + 1) t i j).1 = .endless) :
    ∃ y : Trie H M × NodeId × NodeId,
      Descends Eq (t, i, j) y ∧ (mergeDepth depth y.1 y.2.1 y.2.2).1 = .endless := by
  have hij : i ≠ j := by
    rintro rfl
    rw [mergeDepth, if_pos rfl] at h
    cases h
  rw [mergeDepth_eq depth t hij] at h
  cases hclash : clash? (t.node i) (t.node j) with
  | some e =>
      rw [hclash] at h
      cases h
  | none =>
      rw [hclash] at h
      obtain ⟨t', i', j', behind, hreaches, hendless⟩ := exists_pair_of_endless h
      refine ⟨(t', i', j'), ⟨behind, .head' (.node hij hclash rfl) ?_⟩, hendless⟩
      rw [List.append_nil]
      exact hreaches

/-! ## Merges in any order -/

/-- The merge is done or clashes after finitely many pairs, whichever of the orders is taken. -/
def Terminates (order : Order) (p : Pending H M) : Prop := Acc (fun q p => Advances order p q) p

/-- It does after so many pairs at most. -/
def EndsWithin (order : Order) : Nat → Pending H M → Prop
  | 0, p => p.pairs = []
  | n + 1, p => ∀ q, Advances order p q → EndsWithin order n q

theorem terminates_nil (order : Order) (t : Trie H M) : Terminates order ⟨t, []⟩ := by
  constructor
  intro q hstep
  cases hstep

theorem endsWithin_nil (order : Order) (n : Nat) (t : Trie H M) : EndsWithin order n ⟨t, []⟩ := by
  cases n with
  | zero => rfl
  | succ n =>
      intro q hstep
      cases hstep

/-- Then it ends so in the order of the nodes, if that is one of the orders. -/
theorem EndsWithin.ends (h : EndsWithin order n p) (horder : ∀ children, order children children) :
    ∃ m ≤ n, ∃ r, Ends m p r := by
  induction n generalizing p with
  | zero =>
      obtain ⟨t, ps⟩ := p
      obtain rfl : ps = [] := h
      exact ⟨0, Nat.le_refl 0, _, .done⟩
  | succ n ih =>
      have hmore {q : Pending H M} (hstep : Advances Eq p q) (hstep' : Advances order p q) :
          ∃ m ≤ n + 1, ∃ r, Ends m p r := by
        obtain ⟨m, hm, r, hend⟩ := ih (h q hstep')
        exact ⟨m + 1, Nat.succ_le_succ hm, r, .step hstep hend⟩
      obtain ⟨t, ps⟩ := p
      cases ps with
      | nil => exact ⟨0, Nat.zero_le _, _, .done⟩
      | cons x ps =>
          obtain ⟨i, j⟩ := x
          by_cases hij : i = j
          · subst hij
            exact hmore .same .same
          · cases hclash : clash? (t.node i) (t.node j) with
            | some e => exact ⟨1, Nat.le_add_left 1 n, _, .clash hij hclash⟩
            | none => exact hmore (.node hij hclash rfl) (.node hij hclash (horder _))

theorem EndsWithin.terminates (h : EndsWithin order n p) : Terminates order p := by
  induction n generalizing p with
  | zero =>
      obtain ⟨t, ps⟩ := p
      obtain rfl : ps = [] := h
      exact terminates_nil order t
  | succ n ih => exact .intro p fun q hstep => ih (h q hstep)

/-- If each pair uses up one of some nodes, the merge ends after as many pairs as there are nodes. -/
theorem endsWithin_of_spending {J : Pending H M → Finset NodeId → Prop}
    (hJ : ∀ {t i j ps nodes}, J ⟨t, (i, j) :: ps⟩ nodes →
      ∃ k ∈ nodes, ∀ q, Advances order ⟨t, (i, j) :: ps⟩ q → J q (nodes.erase k))
    {nodes : Finset NodeId} (h : J p nodes) : EndsWithin order nodes.card p := by
  induction nodes using Finset.strongInduction generalizing p with
  | H nodes ih =>
      obtain ⟨t, ps⟩ := p
      cases ps with
      | nil => exact endsWithin_nil order nodes.card t
      | cons x ps =>
          obtain ⟨k, hk, hspent⟩ := hJ h
          rw [← Finset.card_erase_add_one hk]
          intro q hstep
          exact ih _ (Finset.erase_ssubset hk) (hspent q hstep)

/-- A merge terminates if what is in front does, and what is behind does whenever that is done. -/
theorem Terminates.before (h : Terminates order p)
    (hbehind : ∀ t', Reaches order p ⟨t', []⟩ → Terminates order ⟨t', behind⟩) :
    Terminates order (p.before behind) := by
  induction h with
  | intro p _ ih =>
      obtain ⟨t, ps⟩ := p
      cases ps with
      | nil => exact hbehind t .refl
      | cons x ps =>
          have hmore {q : Pending H M} (hstep : Advances order ⟨t, x :: ps⟩ q) :
              Terminates order (q.before behind) :=
            ih q hstep fun t' hrun => hbehind t' (.head hstep hrun)
          constructor
          intro q hstep
          cases hstep with
          | same => exact hmore .same
          | @node _ i j children _ hij hfree horder =>
              have hnext := hmore (.node hij hfree horder)
              simp only [Pending.before, List.append_assoc] at hnext
              exact hnext

end Pending

end WebResource.Trie
