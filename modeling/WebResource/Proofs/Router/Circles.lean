import Mathlib.Data.Finset.Prod
import WebResource.Proofs.Router.Regions

namespace WebResource

/-!
# Merges that go in a circle

A merge that never ends goes down for ever. It makes no nodes, and no node can gain more than some node
has, so sooner or later it comes back to a pair that it is merging, and nothing that a merge looks at has
changed in between. From there it can go on as before. So a merge within the limit gives up if, and only
if, the one without a limit never ends; and a merge ends in every order of the children if, and only if,
no order leads it in a circle.
-/

variable {H M : Type}

/-! ## What a merge does not look at -/

def DynamicChild.bare (d : DynamicChild) : DynamicChild := ⟨[], d.node⟩

/-- A node without the names of its child and without middlewares. -/
def Node.bare (n : Node H M) : Node H M :=
  { n with dynamic := n.dynamic.map DynamicChild.bare, middlewares := [] }

namespace Trie

def bare (t : Trie H M) : Trie H M := ⟨t.nodes.map Node.bare⟩

variable {t t' u : Trie H M} {n s : Node H M} {i j k : NodeId} {ps : List (NodeId × NodeId)}

theorem node_bare (t : Trie H M) (k : NodeId) : t.bare.node k = (t.node k).bare := by
  rw [node, bare, List.getElem?_map, node]
  cases t.nodes[k]? with
  | none => rfl
  | some n => rfl

theorem bare_setNode (t : Trie H M) (i : NodeId) (n : Node H M) :
    (t.setNode i n).bare = t.bare.setNode i n.bare := by
  rw [bare, setNode, List.map_set]
  rfl

theorem mergeLiterals_bare (n : Node H M) (ls : List (String × NodeId)) :
    mergeLiterals n.bare ls = ((mergeLiterals n ls).1.bare, (mergeLiterals n ls).2) := by
  induction ls generalizing n with
  | nil => rfl
  | cons l ls ih =>
      have hsame : n.bare.literal? l.1 = n.literal? l.1 := rfl
      rw [mergeLiterals, mergeLiterals, hsame]
      cases n.literal? l.1 with
      | some i =>
          simp only
          rw [ih]
      | none => exact ih { n with literals := n.literals ++ [l] }

theorem mergeDynamic_bare (n : Node H M) (d : Option DynamicChild) :
    mergeDynamic n.bare (d.map DynamicChild.bare) =
      ((mergeDynamic n d).1.bare, (mergeDynamic n d).2) := by
  cases d with
  | none => rfl
  | some d => cases hn : n.dynamic <;> simp [mergeDynamic, Node.bare, hn, DynamicChild.bare, addNames]

theorem mergeMethods_bare (n : Node H M) (ms : List (String × H)) :
    mergeMethods n.bare ms = ((mergeMethods n ms).1, (mergeMethods n ms).2.bare) := by
  induction ms generalizing n with
  | nil => rfl
  | cons m ms ih =>
      have hsame : n.bare.method? m.1 = n.method? m.1 := rfl
      rw [mergeMethods, mergeMethods, hsame]
      split
      · rfl
      · exact ih { n with methods := n.methods ++ [m] }

theorem mergeFallback_bare (n : Node H M) (h : Option H) :
    mergeFallback n.bare h = ((mergeFallback n h).1, (mergeFallback n h).2.bare) := by
  cases h with
  | none => rfl
  | some h =>
      have hsame : n.bare.fallback = n.fallback := rfl
      rw [mergeFallback, mergeFallback, hsame]
      split <;> rfl

theorem mergeContent_bare (n s : Node H M) :
    mergeContent n.bare s.bare = ((mergeContent n s).1, (mergeContent n s).2.bare) := by
  have hpatterns : n.bare.patterns.merge s.bare.patterns = n.patterns.merge s.patterns := rfl
  rw [mergeContent, mergeContent, hpatterns]
  generalize n.patterns.merge s.patterns = r
  obtain ⟨_ | e, patterns⟩ := r
  · have hmethods : mergeMethods { n.bare with patterns } s.bare.methods = _ :=
      mergeMethods_bare { n with patterns } s.methods
    simp only
    rw [hmethods]
    generalize mergeMethods { n with patterns } s.methods = r
    obtain ⟨_ | e, m⟩ := r
    · have hfallback : mergeFallback m.bare s.bare.fallback = _ := mergeFallback_bare m s.fallback
      simp only
      rw [hfallback]
      generalize mergeFallback m s.fallback = r
      obtain ⟨_ | e, m'⟩ := r
      · rfl
      · rfl
    · rfl
  · rfl

theorem mergeChildren_bare (n s : Node H M) :
    mergeChildren n.bare s.bare = (mergeChildren n s).bare := by
  have hliterals : mergeLiterals n.bare s.bare.literals = _ := mergeLiterals_bare n s.literals
  have hdynamic : mergeDynamic (mergeLiterals n s.literals).1.bare s.bare.dynamic = _ :=
    mergeDynamic_bare (mergeLiterals n s.literals).1 s.dynamic
  rw [mergeChildren, hliterals, hdynamic]
  rfl

theorem combine_bare (n s : Node H M) : combine n.bare s.bare = (combine n s).bare := by
  rw [combine, mergeChildren_bare, mergeContent_bare]
  rfl

theorem clash?_bare (n s : Node H M) : clash? n.bare s.bare = clash? n s := by
  rw [clash?, mergeChildren_bare, mergeContent_bare]
  rfl

theorem sharedChildren_bare (n s : Node H M) :
    sharedChildren n.bare s.bare = sharedChildren n s := by
  have hliterals : mergeLiterals n.bare s.bare.literals = _ := mergeLiterals_bare n s.literals
  have hdynamic : mergeDynamic (mergeLiterals n s.literals).1.bare s.bare.dynamic = _ :=
    mergeDynamic_bare (mergeLiterals n s.literals).1 s.dynamic
  rw [sharedChildren, hliterals, hdynamic]
  rfl

namespace Pending

variable {order : Order} {p q : Pending H M} {r : Merged × Trie H M} {x y : Trie H M × NodeId × NodeId}

theorem Advances.congr (h : Advances order p q) (hbare : u.bare = p.trie.bare) :
    ∃ u', Advances order ⟨u, p.pairs⟩ ⟨u', q.pairs⟩ ∧ u'.bare = q.trie.bare := by
  have hnode (k : NodeId) : (u.node k).bare = (p.trie.node k).bare := by
    rw [← node_bare, hbare, node_bare]
  cases h with
  | same => exact ⟨u, .same, hbare⟩
  | @node t i j children ps hij hfree horder =>
      refine ⟨u.setNode i (combine (u.node i) (u.node j)), .node hij ?_ ?_, ?_⟩
      · rw [← clash?_bare, hnode, hnode, clash?_bare]
        exact hfree
      · rw [← sharedChildren_bare, hnode, hnode, sharedChildren_bare]
        exact horder
      · rw [bare_setNode, bare_setNode, ← combine_bare, ← combine_bare, hnode, hnode, hbare]

theorem Descends.congr (h : Descends order x y) (hbare : u.bare = x.1.bare) :
    ∃ u', Descends order (u, x.2) (u', y.2) ∧ u'.bare = y.1.bare := by
  obtain ⟨behind, hrun⟩ := h
  suffices hall : ∀ {p q : Pending H M}, Relation.TransGen (Advances order) p q →
      ∀ {u : Trie H M}, u.bare = p.trie.bare → ∃ u',
        Relation.TransGen (Advances order) ⟨u, p.pairs⟩ ⟨u', q.pairs⟩ ∧ u'.bare = q.trie.bare by
    obtain ⟨u', hrun', hbare'⟩ := hall hrun hbare
    exact ⟨u', ⟨behind, hrun'⟩, hbare'⟩
  intro p q hrun u hbare
  induction hrun with
  | single hstep =>
      obtain ⟨u', hstep', hbare'⟩ := hstep.congr hbare
      exact ⟨u', .single hstep', hbare'⟩
  | tail _ hstep ih =>
      obtain ⟨u', hrun', hbare'⟩ := ih
      obtain ⟨u'', hstep', hbare''⟩ := hstep.congr hbare'
      exact ⟨u'', hrun'.tail hstep', hbare''⟩

/-- The merge comes to a pair. -/
def ComesTo (order : Order) (p : Pending H M) (x : Trie H M × NodeId × NodeId) : Prop :=
  ∃ behind, Reaches order p ⟨x.1, x.2 :: behind⟩

theorem ComesTo.descends (h : ComesTo order p x) (hmore : Descends order x y) : ComesTo order p y := by
  obtain ⟨behind, hrun⟩ := h
  obtain ⟨behind', hrun'⟩ := hmore.before behind
  exact ⟨behind', hrun.trans hrun'.to_reflTransGen⟩

/-- The merge comes to a pair, and descends from there to the same pair with nothing gained. -/
def FullCircle (order : Order) (p : Pending H M) : Prop :=
  ∃ x y, ComesTo order p x ∧ Descends order x y ∧ y.2 = x.2 ∧ y.1.bare = x.1.bare

/-- Once round a circle, the merge can go round again. -/
theorem Descends.again (h : Descends order x y) (hpair : y.2 = x.2) (hbare : y.1.bare = x.1.bare)
    (hu : u.bare = x.1.bare) (behind : List (NodeId × NodeId)) :
    ∃ u' behind', u'.bare = x.1.bare ∧
      Relation.TransGen (Advances order) ⟨u, x.2 :: behind⟩ ⟨u', x.2 :: behind'⟩ := by
  obtain ⟨u', hround, hu'⟩ := h.congr hu
  obtain ⟨behind', hround⟩ := Descends.before hround behind
  simp only [hpair] at hround
  exact ⟨u', behind', hu'.trans hbare, hround⟩

theorem FullCircle.not_ends (h : FullCircle Eq p) (n : Nat) : ¬Ends n p r := by
  obtain ⟨x, y, ⟨behind, hrun⟩, hcircle, hpair, hbare⟩ := h
  -- Each round leaves fewer pairs to the end.
  suffices hall : ∀ n, ∀ {u : Trie H M} {behind}, u.bare = x.1.bare → ¬Ends n ⟨u, x.2 :: behind⟩ r by
    intro hend
    obtain ⟨m, -, hend'⟩ := hend.of_reaches hrun
    exact hall m rfl hend'
  intro n
  induction n using Nat.strong_induction_on with
  | h n ih =>
      intro u behind hu hend
      obtain ⟨u', behind', hu', hround⟩ := hcircle.again hpair hbare hu behind
      obtain ⟨m, hm, hend'⟩ := hend.of_transGen hround
      exact ih m hm hu' hend'

theorem FullCircle.not_terminates (h : FullCircle order p) : ¬Terminates order p := by
  obtain ⟨x, y, ⟨behind, hrun⟩, hcircle, hpair, hbare⟩ := h
  intro hterminates
  have hlater : ∀ {q}, Reaches order p q → Terminates order q := by
    intro q hrun
    induction hrun with
    | refl => exact hterminates
    | tail _ hstep ih => exact ih.inv hstep
  suffices hall : ∀ q : Pending H M, Acc (Relation.TransGen fun q p => Advances order p q) q →
      ∀ {u : Trie H M} {behind}, q = ⟨u, x.2 :: behind⟩ → u.bare = x.1.bare → False from
    hall _ (hlater hrun).transGen rfl rfl
  intro q hq
  induction hq with
  | intro q _ ih =>
      rintro u behind rfl hu
      obtain ⟨u', behind', hu', hround⟩ := hcircle.again hpair hbare hu behind
      exact ih _ (Relation.transGen_swap.mp hround) rfl hu'

end Pending

/-! ## What nodes can gain -/

theorem addAll_of_none {a : PatternTable H} {es : List (String × H)} (h : (a.addAll es).1 = none) :
    (a.addAll es).2 = ⟨a.entries ++ es⟩ := by
  induction es generalizing a with
  | nil => rw [PatternTable.addAll, List.append_nil]
  | cons e es ih =>
      by_cases hhas : a.has e.1 = true
      · simp only [PatternTable.addAll, PatternTable.insert, if_pos hhas] at h
        cases h
      · simp only [PatternTable.addAll, PatternTable.insert, if_neg hhas] at h ⊢
        rw [ih h]
        simp only [List.append_assoc, List.singleton_append]

theorem mergeMethods_of_none {ms : List (String × H)} (h : (mergeMethods n ms).1 = none) :
    (mergeMethods n ms).2 = { n with methods := n.methods ++ ms } := by
  induction ms generalizing n with
  | nil => rw [mergeMethods, List.append_nil]
  | cons m ms ih =>
      rw [mergeMethods] at h ⊢
      split
      · next htaken =>
          rw [if_pos htaken] at h
          cases h
      · next hfree =>
          rw [if_neg hfree] at h
          rw [ih h]
          simp only [List.append_assoc, List.singleton_append]

theorem mergeFallback_of_none {h : Option H} (hmerge : (mergeFallback n h).1 = none) :
    (mergeFallback n h).2 = { n with fallback := n.fallback.or h } ∧
      ¬(n.fallback.isSome = true ∧ h.isSome = true) := by
  cases h with
  | none => exact ⟨by rw [mergeFallback, Option.or_none], fun hboth => nomatch hboth.2⟩
  | some h =>
      rw [mergeFallback] at hmerge ⊢
      split
      · next hsome =>
          rw [if_pos hsome] at hmerge
          cases hmerge
      · next hnone =>
          rw [Option.not_isSome_iff_eq_none] at hnone
          rw [hnone, Option.none_or]
          exact ⟨rfl, fun hboth => nomatch hboth.1⟩

/-- The parts of a merge without a clash, none of which clashes. -/
theorem mergeContent_parts (h : (mergeContent n s).1 = none) :
    ∃ patterns m m', n.patterns.merge s.patterns = (none, patterns) ∧
      mergeMethods { n with patterns } s.methods = (none, m) ∧
      mergeFallback m s.fallback = (none, m') ∧
      (mergeContent n s).2 = { m' with middlewares := m'.middlewares ++ s.middlewares } := by
  rw [mergeContent] at h ⊢
  generalize n.patterns.merge s.patterns = a at h
  obtain ⟨_ | e, patterns⟩ := a
  · simp only at h ⊢
    generalize hmethods : mergeMethods { n with patterns } s.methods = b at h
    obtain ⟨_ | e, m⟩ := b
    · simp only at h ⊢
      generalize hfallback : mergeFallback m s.fallback = c at h
      obtain ⟨_ | e, m'⟩ := c
      · exact ⟨patterns, m, m', rfl, hmethods, hfallback, rfl⟩
      · cases h
    · cases h
  · cases h

/-- What is merged without a clash comes behind what is there. -/
theorem mergeContent_of_none (h : (mergeContent n s).1 = none) :
    (mergeContent n s).2 = { n with
      patterns := ⟨n.patterns.entries ++ s.patterns.entries⟩
      methods := n.methods ++ s.methods
      fallback := n.fallback.or s.fallback
      middlewares := n.middlewares ++ s.middlewares } ∧ ¬n.content.Clashes s.content := by
  obtain ⟨patterns, m, m', hpatterns, hmethods, hfallback, hresult⟩ := mergeContent_parts h
  have hentries := addAll_of_none (congrArg Prod.fst hpatterns)
  obtain rfl : patterns = _ := (congrArg Prod.snd hpatterns).symm.trans hentries
  have hm := mergeMethods_of_none (congrArg Prod.fst hmethods)
  obtain rfl : m = _ := (congrArg Prod.snd hmethods).symm.trans hm
  obtain ⟨hm', hfree⟩ := mergeFallback_of_none (congrArg Prod.fst hfallback)
  obtain rfl : m' = _ := (congrArg Prod.snd hfallback).symm.trans hm'
  refine ⟨hresult, ?_⟩
  rintro (htaken | htaken | htaken)
  · obtain ⟨e, n', he⟩ := mergeMethods_of_taken
      { n with patterns := ⟨n.patterns.entries ++ s.patterns.entries⟩ } htaken
    cases he.symm.trans hmethods
  · exact hfree htaken
  · obtain ⟨e, a, he⟩ := addAll_of_taken n.patterns htaken
    cases he.symm.trans hpatterns

/-- Something that a node can have once: a child at a step, or a handler for some requests. -/
inductive Mark where
  | step (s : Step)
  | pattern (text : String)
  | method (name : String)
  | fallback
  deriving DecidableEq

end Trie

namespace Node

open Trie

variable {n s : Node H M}

def marks (n : Node H M) : List Mark :=
  n.literals.map (fun l => .step (.literal l.1)) ++ (n.dynamic.map fun _ => .step .dynamic).toList ++
    n.patterns.entries.map (fun e => .pattern e.1) ++ n.methods.map (fun m => .method m.1) ++
    (n.fallback.map fun _ => .fallback).toList

theorem length_marks_le (n : Node H M) : n.marks.length ≤ n.weight := by
  have hdynamic : (n.dynamic.map fun _ => Mark.step .dynamic).toList.length ≤ 1 := Option.length_toList_le
  have hfallback : (n.fallback.map fun _ => Mark.fallback).toList.length ≤ 1 := Option.length_toList_le
  simp only [marks, weight, List.length_append, List.length_map]
  omega

theorem step_mem_marks {step : Step} : .step step ∈ n.marks ↔ (n.next step).isSome := by
  cases step with
  | literal text =>
      rw [next, ← Option.ne_none_iff_isSome, ne_eq, literal?_eq_none_iff]
      simp [marks]
  | dynamic => cases hn : n.dynamic <;> simp [marks, next, hn]

theorem pattern_mem_marks {text : String} :
    .pattern text ∈ n.marks ↔ text ∈ n.patterns.entries.map Prod.fst := by simp [marks]

theorem method_mem_marks {name : String} :
    .method name ∈ n.marks ↔ name ∈ n.methods.map Prod.fst := by simp [marks]

theorem fallback_mem_marks : .fallback ∈ n.marks ↔ n.fallback.isSome := by
  cases hn : n.fallback <;> simp [marks, hn]

end Node

namespace Trie

variable {t t' u : Trie H M} {n s : Node H M} {i j k : NodeId} {ps : List (NodeId × NodeId)}

section Free

variable (hkeys : (s.literals.map Prod.fst).Nodup) (hfree : clash? n s = none)

include hkeys hfree

theorem combine_of_free : combine n s = { mergeChildren n s with
      patterns := ⟨n.patterns.entries ++ s.patterns.entries⟩
      methods := n.methods ++ s.methods
      fallback := n.fallback.or s.fallback
      middlewares := n.middlewares ++ s.middlewares } ∧ ¬n.content.Clashes s.content := by
  obtain ⟨hcontent, hclash⟩ := mergeContent_of_none hfree
  rw [clashes_mergeChildren hkeys] at hclash
  refine ⟨hcontent.trans ?_, hclash⟩
  simp only [mergeChildren_eq n hkeys]

theorem mem_marks_combine {mark : Mark} :
    mark ∈ (combine n s).marks ↔ mark ∈ n.marks ∨ mark ∈ s.marks := by
  cases mark with
  | step step => simp only [Node.step_mem_marks, next_combine hkeys, Option.isSome_or, Bool.or_eq_true]
  | pattern text =>
      simp only [Node.pattern_mem_marks, (combine_of_free hkeys hfree).1, List.map_append, List.mem_append]
  | method name =>
      simp only [Node.method_mem_marks, (combine_of_free hkeys hfree).1, List.map_append, List.mem_append]
  | fallback =>
      simp only [Node.fallback_mem_marks, (combine_of_free hkeys hfree).1, Option.isSome_or,
        Bool.or_eq_true]

/-- A node that gains nothing stays as it is, but for names and middlewares. -/
theorem bare_combine (hmarks : ∀ mark ∈ s.marks, mark ∈ n.marks) : (combine n s).bare = n.bare := by
  obtain ⟨hcombine, hclash⟩ := combine_of_free hkeys hfree
  have hstep {step : Step} (hs : (s.next step).isSome) : (n.next step).isSome :=
    Node.step_mem_marks.mp (hmarks _ (Node.step_mem_marks.mpr hs))
  have hpatterns : s.patterns.entries = [] := by
    refine List.eq_nil_iff_forall_not_mem.mpr fun e he => hclash (Or.inr (Or.inr ⟨e, he, ?_⟩))
    exact Node.pattern_mem_marks.mp (hmarks _ (Node.pattern_mem_marks.mpr (List.mem_map_of_mem he)))
  have hmethods : s.methods = [] := by
    refine List.eq_nil_iff_forall_not_mem.mpr fun m hm => hclash (Or.inl ⟨m, hm, ?_⟩)
    exact Node.method_mem_marks.mp (hmarks _ (Node.method_mem_marks.mpr (List.mem_map_of_mem hm)))
  have hfallback : s.fallback = none := by
    rw [← Option.not_isSome_iff_eq_none]
    intro hsome
    have hn := Node.fallback_mem_marks.mp (hmarks _ (Node.fallback_mem_marks.mpr hsome))
    exact hclash (Or.inr (Or.inl ⟨hn, hsome⟩))
  have hliterals : (s.literals.filter fun l => (n.literal? l.1).isNone) = [] := by
    rw [List.filter_eq_nil_iff]
    intro l hl hnone
    have hnext : s.next (.literal l.1) = some l.2 := (literal?_eq_some_iff hkeys).mpr hl
    have hn := hstep (Option.isSome_iff_exists.mpr ⟨_, hnext⟩)
    rw [Option.isNone_iff_eq_none] at hnone
    rw [Node.next, hnone] at hn
    cases hn
  have hdynamic : (mergeDynamic n s.dynamic).1.dynamic.map DynamicChild.bare =
      n.dynamic.map DynamicChild.bare := by
    cases hs : s.dynamic with
    | none => rfl
    | some d =>
        have hn : (n.next .dynamic).isSome := hstep (by rw [Node.next, hs]; rfl)
        obtain ⟨e, he⟩ := Option.isSome_iff_exists.mp (Option.isSome_map.symm.trans hn)
        simp only [mergeDynamic, he, Option.map_some, DynamicChild.bare]
  rw [hcombine, mergeChildren_eq n hkeys]
  simp only [Node.bare, hpatterns, hmethods, hfallback, hliterals, hdynamic, List.append_nil,
    Option.or_none]

end Free

theorem length_marks_le (t : Trie H M) : (t.nodes.flatMap Node.marks).length ≤ t.weight := by
  rw [weight]
  induction t.nodes with
  | nil => exact Nat.le_refl 0
  | cons n ns ih =>
      rw [List.flatMap_cons, List.length_append, List.foldr_cons]
      exact Nat.add_le_add n.length_marks_le ih

/-- The marks of all nodes. -/
def holdings (t : Trie H M) : Finset (NodeId × Mark) :=
  ((List.range t.size).flatMap fun k => (t.node k).marks.map (k, ·)).toFinset

theorem lt_of_mem_marks {mark : Mark} (h : mark ∈ (t.node k).marks) : k < t.size := by
  by_contra hk
  rw [node_of_le (Nat.le_of_not_lt hk)] at h
  cases h

theorem mem_holdings {mark : Mark} : (k, mark) ∈ t.holdings ↔ mark ∈ (t.node k).marks := by
  simp only [holdings, List.mem_toFinset, List.mem_flatMap, List.mem_range, List.mem_map]
  constructor
  · rintro ⟨_, -, _, hmark, heq⟩
    cases heq
    exact hmark
  · intro hmark
    exact ⟨k, lt_of_mem_marks hmark, mark, hmark, rfl⟩

namespace Pending

variable {order : Order} {p q : Pending H M} {x y : Trie H M × NodeId × NodeId}
  (horder : ∀ {children all}, order children all → children ⊆ all)

/-- A merge under way in a trie: no link leads out of it, and no node has a mark that was nowhere. -/
structure Contained (t : Trie H M) (p : Pending H M) : Prop where
  within : Within t (· < t.size) p.trie
  pairs : ∀ x ∈ p.pairs, x.1 < t.size ∧ x.2 < t.size
  marks : ∀ {k mark}, mark ∈ (p.trie.node k).marks → ∃ k', mark ∈ (t.node k').marks

theorem Contained.card_holdings_le (h : Contained t p) :
    p.trie.holdings.card ≤ t.size * t.weight := by
  have hsubset : p.trie.holdings ⊆ Finset.range t.size ×ˢ (t.nodes.flatMap Node.marks).toFinset := by
    rintro ⟨k, mark⟩ hmark
    rw [mem_holdings] at hmark
    rw [Finset.mem_product, Finset.mem_range, List.mem_toFinset, List.mem_flatMap]
    obtain ⟨k', hk'⟩ := h.marks hmark
    have hlt := lt_of_mem_marks hk'
    refine ⟨h.within.size ▸ lt_of_mem_marks hmark, t.nodes[k'], List.getElem_mem hlt, ?_⟩
    rw [node, List.getElem?_eq_getElem hlt] at hk'
    exact hk'
  calc p.trie.holdings.card
    _ ≤ (Finset.range t.size ×ˢ (t.nodes.flatMap Node.marks).toFinset).card :=
      Finset.card_le_card hsubset
    _ = t.size * (t.nodes.flatMap Node.marks).toFinset.card := by
      rw [Finset.card_product, Finset.card_range]
    _ ≤ t.size * t.weight := Nat.mul_le_mul_left _ ((List.toFinset_card_le _).trans t.length_marks_le)

theorem Contained.holdings_subset (h : Contained t p) (hstep : Advances order p q) :
    p.trie.holdings ⊆ q.trie.holdings := by
  cases hstep with
  | same => exact Finset.Subset.refl _
  | @node u i j children ps hij hfree _ =>
      rintro ⟨k, mark⟩ hmark
      rw [mem_holdings] at hmark ⊢
      rcases node_setNode_cases u i (combine (u.node i) (u.node j)) k with hk | ⟨rfl, hk⟩
      · rw [hk]
        exact hmark
      · rw [hk, mem_marks_combine (h.within.keys j) hfree]
        exact Or.inl hmark

theorem Contained.bare_eq (h : Contained t p) (hstep : Advances order p q)
    (hsame : q.trie.holdings ⊆ p.trie.holdings) : q.trie.bare = p.trie.bare := by
  cases hstep with
  | same => rfl
  | @node u i j children ps hij hfree _ =>
      obtain ⟨hi, -⟩ := h.pairs (i, j) List.mem_cons_self
      have hkeys := h.within.keys j
      have hnode : (combine (u.node i) (u.node j)).bare = (u.node i).bare := by
        refine bare_combine hkeys hfree fun mark hmark => ?_
        refine mem_holdings.mp (hsame (mem_holdings.mpr ?_))
        rw [node_setNode_self (h.within.size ▸ hi), mem_marks_combine hkeys hfree]
        exact Or.inr hmark
      rw [bare_setNode, hnode, ← node_bare, setNode_node]

include horder

theorem Contained.advances (h : Contained t p) (hstep : Advances order p q) : Contained t q := by
  cases hstep with
  | same => exact ⟨h.within, fun x hx => h.pairs x (List.mem_cons_of_mem _ hx), h.marks⟩
  | @node u i j children ps hij hfree hchildren =>
      obtain ⟨hi, hj⟩ := h.pairs (i, j) List.mem_cons_self
      have hkeys := h.within.keys j
      constructor
      · exact h.within.combine hi hj (.refl _)
      · intro x hx
        rcases List.mem_append.mp hx with hx | hx
        · have hshared := horder hchildren hx
          obtain ⟨step, hi', hj'⟩ := exists_step_of_shared hkeys hshared
          exact ⟨h.within.closed hi hi', h.within.closed hj hj'⟩
        · exact h.pairs x (List.mem_cons_of_mem _ hx)
      · intro k mark hmark
        rcases node_setNode_cases u i (combine (u.node i) (u.node j)) k with hk | ⟨-, hk⟩
        · rw [hk] at hmark
          exact h.marks hmark
        · rw [hk, mem_marks_combine hkeys hfree] at hmark
          exact hmark.elim h.marks h.marks

/-- What a run keeps, and that it gains something if it changes what a merge looks at. -/
theorem Contained.reaches (h : Contained t p) (hrun : Reaches order p q) :
    Contained t q ∧ p.trie.holdings ⊆ q.trie.holdings ∧
      (q.trie.holdings ⊆ p.trie.holdings → q.trie.bare = p.trie.bare) := by
  induction hrun with
  | refl => exact ⟨h, Finset.Subset.refl _, fun _ => rfl⟩
  | tail _ hstep ih =>
      obtain ⟨hlater, hgained, hbare⟩ := ih
      have hmore := hlater.holdings_subset hstep
      refine ⟨hlater.advances horder hstep, hgained.trans hmore, ?_⟩
      intro hsame
      have hlast := hlater.bare_eq hstep (hsame.trans hgained)
      exact hlast.trans (hbare (hmore.trans hsame))

theorem Contained.descends (h : Contained t ⟨x.1, [x.2]⟩) (hrun : Descends order x y) :
    Contained t ⟨y.1, [y.2]⟩ ∧ x.1.holdings ⊆ y.1.holdings ∧
      (y.1.holdings ⊆ x.1.holdings → y.1.bare = x.1.bare) := by
  obtain ⟨behind, hrun⟩ := hrun
  obtain ⟨hlater, hgained, hbare⟩ := h.reaches horder hrun.to_reflTransGen
  refine ⟨⟨hlater.within, ?_, hlater.marks⟩, hgained, hbare⟩
  intro z hz
  rw [List.mem_singleton.mp hz]
  exact hlater.pairs y.2 List.mem_cons_self

omit horder

/-! ## The limit -/

/-- A pair, and how many marks there are when a merge comes to it. -/
def stage (x : Trie H M × NodeId × NodeId) : Nat × NodeId × NodeId := (x.1.holdings.card, x.2)

def stages (t : Trie H M) : Finset (Nat × NodeId × NodeId) :=
  Finset.range (t.size * t.weight + 1) ×ˢ Finset.range t.size ×ˢ Finset.range t.size

theorem card_stages (t : Trie H M) :
    (stages t).card = (t.size * t.weight + 1) * (t.size * t.size) := by
  simp only [stages, Finset.card_product, Finset.card_range]

theorem Contained.stage_mem (h : Contained t ⟨x.1, [x.2]⟩) : stage x ∈ stages t := by
  obtain ⟨hi, hj⟩ := h.pairs x.2 (List.mem_singleton_self _)
  simp only [stages, stage, Finset.mem_product, Finset.mem_range]
  exact ⟨Nat.lt_succ_of_le h.card_holdings_le, hi, hj⟩

/-- A pair that a merge has come to, with the stages that it has not been in on the way down. -/
structure Descended (order : Order) (t : Trie H M) (p : Pending H M)
    (left : Finset (Nat × NodeId × NodeId)) (x : Trie H M × NodeId × NodeId) : Prop where
  contained : Contained t ⟨x.1, [x.2]⟩
  comes : ComesTo order p x
  passed : ∀ s ∈ stages t, s ∉ left → ∃ y, Contained t ⟨y.1, [y.2]⟩ ∧ ComesTo order p y ∧
    Descends order y x ∧ stage y = s

theorem descended_start (order : Order) (h : Contained t ⟨t, [(i, j)]⟩) :
    Descended order t ⟨t, [(i, j)]⟩ (stages t) (t, i, j) :=
  ⟨h, ⟨[], .refl⟩, fun _ hs hout => absurd hs hout⟩

section Descended

variable {left : Finset (Nat × NodeId × NodeId)} (h : Descended order t p left x)

include h horder

theorem Descended.descends (hmore : Descends order x y) :
    Descended order t p (left.erase (stage x)) y := by
  refine ⟨(h.contained.descends horder hmore).1, h.comes.descends hmore, ?_⟩
  intro s hs hout
  by_cases hsx : s = stage x
  · exact ⟨x, h.contained, h.comes, hmore, hsx.symm⟩
  · obtain ⟨z, hz, hcomes, hdescends, hstage⟩ :=
      h.passed s hs fun hmem => hout (Finset.mem_erase.mpr ⟨hsx, hmem⟩)
    exact ⟨z, hz, hcomes, hdescends.trans hmore, hstage⟩

variable (hcircle : ¬FullCircle order p)

include hcircle

/-- On its way down, a merge that goes in no circle is in each stage once at most. -/
theorem Descended.stage_mem : stage x ∈ left := by
  by_contra hpassed
  obtain ⟨y, hy, hcomes, hround, hstage⟩ := h.passed _ h.contained.stage_mem hpassed
  obtain ⟨-, hgained, hbare⟩ := hy.descends horder hround
  obtain ⟨hmarks, hpair⟩ := Prod.ext_iff.mp hstage
  have hholdings := Finset.eq_of_subset_of_card_le hgained (Nat.le_of_eq hmarks.symm)
  exact hcircle ⟨y, x, hcomes, hround, hpair.symm, hbare hholdings.symm.subset⟩

theorem Descended.terminates : Terminates order ⟨x.1, [x.2]⟩ := by
  induction left using Finset.strongInduction generalizing x with
  | H left ih =>
      have hspent := Finset.erase_ssubset (h.stage_mem horder hcircle)
      suffices hall : ∀ ps u, Relation.TransGen (Advances order) ⟨x.1, [x.2]⟩ ⟨u, ps⟩ →
          Terminates order ⟨u, ps⟩ from .intro _ fun q hstep => hall q.pairs q.trie (.single hstep)
      intro ps
      induction ps with
      | nil =>
          intro u _
          exact terminates_nil order u
      | cons y ps ihps =>
          intro u hrun
          have hfirst : Terminates order ⟨u, [y]⟩ :=
            ih _ hspent (h.descends horder (y := (u, y)) ⟨ps, hrun⟩)
          exact hfirst.before fun t' hdone => ihps t' (hrun.trans_left (Reaches.before hdone ps))

end Descended

/-- A merge that goes in no circle is within as many levels as there are stages left. -/
theorem Descended.ne_endless {left : Finset (Nat × NodeId × NodeId)} {depth : Nat}
    (h : Descended Eq t p left x) (hcircle : ¬FullCircle Eq p) (hdepth : left.card < depth) :
    (mergeDepth depth x.1 x.2.1 x.2.2).1 ≠ .endless := by
  have horder {children all : List (NodeId × NodeId)} (hsame : children = all) : children ⊆ all :=
    hsame ▸ List.Subset.refl children
  induction depth generalizing left x with
  | zero => exact absurd hdepth (Nat.not_lt_zero _)
  | succ depth ih =>
      intro hendless
      obtain ⟨y, hmore, hendless⟩ := exists_descends_of_endless hendless
      have hcard := Finset.card_erase_lt_of_mem (h.stage_mem horder hcircle)
      exact ih (h.descends horder hmore) (Nat.lt_of_lt_of_le hcard (Nat.le_of_lt_succ hdepth)) hendless

end Pending

section Merge

open Pending

variable (ht : Sound t) (hi : i < t.size) (hj : j < t.size)

include ht hi hj

theorem contained_start : Contained t ⟨t, [(i, j)]⟩ := by
  refine ⟨.rfl ht id fun _ hc => ht.lt hc, ?_, fun hmark => ⟨_, hmark⟩⟩
  intro x hx
  rw [List.mem_singleton.mp hx]
  exact ⟨hi, hj⟩

/-- A merge that gives up goes in a circle. -/
theorem fullCircle_of_endless (h : (t.merge i j).1 = .endless) : FullCircle Eq ⟨t, [(i, j)]⟩ := by
  by_contra hcircle
  have hstart := descended_start Eq (contained_start ht hi hj)
  exact hstart.ne_endless hcircle (Nat.lt_succ_of_le (Nat.le_of_eq (card_stages t))) h

theorem merge_endless_iff : (t.merge i j).1 = .endless ↔ FullCircle Eq ⟨t, [(i, j)]⟩ := by
  constructor
  · exact fullCircle_of_endless ht hi hj
  · intro hcircle
    by_contra hends
    obtain ⟨n, hend⟩ := ends_mergeDepth hends
    exact hcircle.not_ends n hend

/-- A merge ends with what it gives within the limit, if it ends. -/
theorem exists_ends_iff {r : Merged × Trie H M} :
    (∃ n, Ends n ⟨t, [(i, j)]⟩ r) ↔ t.merge i j = r ∧ r.1 ≠ .endless := by
  constructor
  · rintro ⟨n, hend⟩
    have hends : (t.merge i j).1 ≠ .endless := by
      intro hendless
      exact (fullCircle_of_endless ht hi hj hendless).not_ends n hend
    obtain ⟨m, hend'⟩ := ends_mergeDepth hends
    exact ⟨hend'.unique hend, hend.ne_endless⟩
  · rintro ⟨rfl, hends⟩
    exact ends_mergeDepth hends

/-- A merge ends in every order if, and only if, none leads it in a circle. -/
theorem terminates_iff {order : Order} (horder : ∀ {children all}, order children all → children ⊆ all) :
    Terminates order ⟨t, [(i, j)]⟩ ↔ ¬FullCircle order ⟨t, [(i, j)]⟩ := by
  constructor
  · intro hterminates hcircle
    exact hcircle.not_terminates hterminates
  · intro hcircle
    have hstart := descended_start order (contained_start ht hi hj)
    exact hstart.terminates horder hcircle

end Merge

end Trie

end WebResource
