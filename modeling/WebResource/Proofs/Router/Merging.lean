import WebResource.Proofs.Router.Shape

namespace WebResource.Trie

/-!
# Merging trees

Where two trees that share no node are merged, the positions of both become the positions of one,
and at a position that both have the source's content comes behind the target's. A merge stops only
if the contents at such a position clash, and it always ends.
-/

variable {H M : Type}

/-! ## Merging one node into another -/

section Nodes

variable {n s : Node H M}

theorem literal?_eq_some_iff {i : NodeId} {text : String} (hkeys : (n.literals.map Prod.fst).Nodup) :
    n.literal? text = some i ↔ (text, i) ∈ n.literals := by
  rw [Node.literal?, Option.map_eq_some_iff]
  constructor
  · rintro ⟨⟨text', i'⟩, hfind, rfl⟩
    have htext : text' = text := by simpa using List.find?_some hfind
    exact htext ▸ List.mem_of_find?_eq_some hfind
  · intro hmem
    have hfound : (n.literals.find? (·.1 == text)).isSome := by
      rw [List.find?_isSome]
      exact ⟨_, hmem, beq_self_eq_true text⟩
    obtain ⟨e, he⟩ := Option.isSome_iff_exists.mp hfound
    have htext : e.1 = text := by simpa using List.find?_some he
    have hsame : e = (text, i) :=
      List.inj_on_of_nodup_map hkeys (List.mem_of_find?_eq_some he) hmem htext
    exact ⟨e, he, by rw [hsame]⟩

/-- The source's literals that the target does not have come behind its own. -/
theorem mergeLiterals_eq (n : Node H M) {ls : List (String × NodeId)}
    (hkeys : (ls.map Prod.fst).Nodup) :
    mergeLiterals n ls =
      ({ n with literals := n.literals ++ ls.filter fun l => (n.literal? l.1).isNone },
        ls.filterMap fun l => (n.literal? l.1).map (·, l.2)) := by
  induction ls generalizing n with
  | nil =>
      rw [mergeLiterals, List.filter_nil, List.append_nil]
      rfl
  | cons l ls ih =>
      obtain ⟨text, j⟩ := l
      obtain ⟨hfresh, hkeys⟩ := List.nodup_cons.mp hkeys
      cases hfound : n.literal? text with
      | some i =>
          simp only [mergeLiterals, hfound, ih n hkeys]
          rw [List.filter_cons_of_neg (by simp [hfound]),
            List.filterMap_cons_some (by rw [hfound, Option.map_some])]
      | none =>
          have hsame (l : String × NodeId) (hl : l ∈ ls) :
              { n with literals := n.literals ++ [(text, j)] }.literal? l.1 = n.literal? l.1 := by
            rw [literal?_append_singleton n text l.1 j hfound, if_neg]
            rintro rfl
            exact hfresh (List.mem_map_of_mem hl : l.1 ∈ ls.map Prod.fst)
          have hfilter : (ls.filter fun l =>
              ({ n with literals := n.literals ++ [(text, j)] }.literal? l.1).isNone) =
                ls.filter fun l => (n.literal? l.1).isNone :=
            List.filter_congr fun l hl => by rw [hsame l hl]
          have hpairs : (ls.filterMap fun l =>
              ({ n with literals := n.literals ++ [(text, j)] }.literal? l.1).map (·, l.2)) =
                ls.filterMap fun l => (n.literal? l.1).map (·, l.2) :=
            List.filterMap_congr fun l hl => by rw [hsame l hl]
          simp only [mergeLiterals, hfound]
          rw [ih _ hkeys, hfilter, hpairs, List.filter_cons_of_pos (by simp [hfound]),
            List.filterMap_cons_none (by rw [hfound, Option.map_none]), List.append_assoc]
          rfl

/-! Entries are added one by one, each only if its key is not there yet. -/

theorem free_rest {as es : List (String × H)} {e : String × H} (hkeys : ((e :: es).map Prod.fst).Nodup)
    (hfree : ∀ x ∈ e :: es, x.1 ∉ as.map Prod.fst) : ∀ x ∈ es, x.1 ∉ (as ++ [e]).map Prod.fst := by
  intro x hx hmem
  rw [List.map_append, List.mem_append] at hmem
  rcases hmem with hmem | hmem
  · exact hfree x (List.mem_cons_of_mem _ hx) hmem
  · rw [List.map_cons, List.nodup_cons] at hkeys
    exact hkeys.1 (List.mem_singleton.mp hmem ▸ List.mem_map_of_mem hx)

theorem taken_rest {as es : List (String × H)} {e : String × H}
    (htaken : ∃ x ∈ e :: es, x.1 ∈ as.map Prod.fst) (he : e.1 ∉ as.map Prod.fst) :
    ∃ x ∈ es, x.1 ∈ (as ++ [e]).map Prod.fst := by
  obtain ⟨x, hx, hmem⟩ := htaken
  rcases List.mem_cons.mp hx with rfl | hx
  · exact absurd hmem he
  · refine ⟨x, hx, ?_⟩
    rw [List.map_append]
    exact List.mem_append_left _ hmem

theorem mergeMethods_of_free (n : Node H M) {ms : List (String × H)} (hms : (ms.map Prod.fst).Nodup)
    (hfree : ∀ m ∈ ms, m.1 ∉ n.methods.map Prod.fst) :
    mergeMethods n ms = (none, { n with methods := n.methods ++ ms }) := by
  induction ms generalizing n with
  | nil => rw [mergeMethods, List.append_nil]
  | cons m ms ih =>
      have hnew : ¬(n.method? m.1).isSome := by
        rw [isSome_method?]
        exact hfree m List.mem_cons_self
      have hrest := ih { n with methods := n.methods ++ [m] } (List.nodup_cons.mp hms).2
        (free_rest hms hfree)
      rw [mergeMethods, if_neg hnew, hrest]
      simp only [List.append_assoc, List.singleton_append]

theorem mergeMethods_of_taken (n : Node H M) {ms : List (String × H)}
    (htaken : ∃ m ∈ ms, m.1 ∈ n.methods.map Prod.fst) :
    ∃ e n', mergeMethods n ms = (some e, n') := by
  induction ms generalizing n with
  | nil =>
      obtain ⟨m, hm, -⟩ := htaken
      cases hm
  | cons m ms ih =>
      rw [mergeMethods]
      split
      · exact ⟨_, _, rfl⟩
      · next hnew =>
          rw [isSome_method?] at hnew
          exact ih _ (taken_rest htaken hnew)

theorem addAll_of_free (m : PatternTable H) {es : List (String × H)} (hes : (es.map Prod.fst).Nodup)
    (hfree : ∀ e ∈ es, e.1 ∉ m.entries.map Prod.fst) :
    m.addAll es = (none, ⟨m.entries ++ es⟩) := by
  induction es generalizing m with
  | nil => rw [PatternTable.addAll, List.append_nil]
  | cons e es ih =>
      have hnew : ¬m.has e.1 = true := by
        rw [PatternTable.has_iff]
        exact hfree e List.mem_cons_self
      have hrest := ih ⟨m.entries ++ [e]⟩ (List.nodup_cons.mp hes).2 (free_rest hes hfree)
      simp only [PatternTable.addAll, PatternTable.insert, if_neg hnew]
      rw [hrest]
      simp only [List.append_assoc, List.singleton_append]

theorem addAll_of_taken (m : PatternTable H) {es : List (String × H)}
    (htaken : ∃ e ∈ es, e.1 ∈ m.entries.map Prod.fst) : ∃ e m', m.addAll es = (some e, m') := by
  induction es generalizing m with
  | nil =>
      obtain ⟨e, he, -⟩ := htaken
      cases he
  | cons e es ih =>
      simp only [PatternTable.addAll, PatternTable.insert]
      by_cases hhas : m.has e.1 = true
      · rw [if_pos hhas]
        exact ⟨_, _, rfl⟩
      · rw [if_neg hhas]
        rw [PatternTable.has_iff] at hhas
        exact ih _ (taken_rest htaken hhas)

section Content

variable (hs : s.content.Distinct)

include hs

theorem merge_patterns_of_free (hfree : ¬∃ e ∈ s.patterns.entries, e.1 ∈ n.patterns.entries.map Prod.fst) :
    n.patterns.merge s.patterns = (none, ⟨n.patterns.entries ++ s.patterns.entries⟩) :=
  addAll_of_free n.patterns hs.patterns fun e he hmem => hfree ⟨e, he, hmem⟩

theorem merge_methods_of_free (patterns : PatternTable H)
    (hfree : ¬∃ m ∈ s.methods, m.1 ∈ n.methods.map Prod.fst) :
    mergeMethods { n with patterns } s.methods =
      (none, { n with patterns, methods := n.methods ++ s.methods }) :=
  mergeMethods_of_free { n with patterns } hs.methods fun m hm hmem => hfree ⟨m, hm, hmem⟩

theorem mergeContent_of_free (hfree : ¬n.content.Clashes s.content) :
    mergeContent n s = (none, { n with
      patterns := ⟨n.patterns.entries ++ s.patterns.entries⟩
      methods := n.methods ++ s.methods
      fallback := n.fallback.or s.fallback
      middlewares := n.middlewares ++ s.middlewares }) := by
  obtain ⟨hmethods, hrest⟩ := not_or.mp hfree
  obtain ⟨hfallback, hpatterns⟩ := not_or.mp hrest
  rw [mergeContent, merge_patterns_of_free hs hpatterns]
  simp only
  rw [merge_methods_of_free hs _ hmethods]
  cases hsource : s.fallback with
  | none => simp only [mergeFallback, Option.or_none]
  | some h =>
      have hnone : n.fallback = none := by
        rw [← Option.not_isSome_iff_eq_none]
        intro hsome
        exact hfallback ⟨hsome, congrArg Option.isSome hsource⟩
      simp [mergeFallback, hnone]

theorem mergeContent_of_clash (hclash : n.content.Clashes s.content) :
    ∃ e n', mergeContent n s = (some e, n') := by
  rw [mergeContent]
  by_cases hpatterns : ∃ e ∈ s.patterns.entries, e.1 ∈ n.patterns.entries.map Prod.fst
  · obtain ⟨e, m, hmerge⟩ := addAll_of_taken n.patterns hpatterns
    rw [PatternTable.merge, hmerge]
    exact ⟨_, _, rfl⟩
  · rw [merge_patterns_of_free hs hpatterns]
    simp only
    by_cases hmethods : ∃ m ∈ s.methods, m.1 ∈ n.methods.map Prod.fst
    · obtain ⟨e, n', hmerge⟩ := mergeMethods_of_taken
        { n with patterns := ⟨n.patterns.entries ++ s.patterns.entries⟩ } hmethods
      rw [hmerge]
      exact ⟨_, _, rfl⟩
    · rw [merge_methods_of_free hs _ hmethods]
      rcases hclash with hclash | ⟨htarget, hsource⟩ | hclash
      · exact absurd hclash hmethods
      · obtain ⟨h, hh⟩ := Option.isSome_iff_exists.mp hsource
        have hfallback : s.fallback = some h := hh
        have htaken : n.fallback.isSome = true := htarget
        simp only [hfallback, mergeFallback, if_pos htaken]
        exact ⟨_, _, rfl⟩
      · exact absurd hclash hpatterns

end Content

/-- A node with the children of another. -/
def mergeChildren (n s : Node H M) : Node H M :=
  (mergeDynamic (mergeLiterals n s.literals).1 s.dynamic).1

/-- A node with all that another holds. -/
def combine (n s : Node H M) : Node H M := (mergeContent (mergeChildren n s) s).2

/-- The steps that two nodes have in common, with the children there. -/
def common (n s : Node H M) : List (Step × NodeId × NodeId) :=
  (s.literals.filterMap fun l => (n.literal? l.1).map fun i => (.literal l.1, i, l.2)) ++
    (s.dynamic.bind fun d => n.dynamic.map fun e => (Step.dynamic, e.node, d.node)).toList

theorem mergeChildren_eq (n : Node H M) (hkeys : (s.literals.map Prod.fst).Nodup) :
    mergeChildren n s = { n with
      literals := n.literals ++ s.literals.filter fun l => (n.literal? l.1).isNone
      dynamic := (mergeDynamic n s.dynamic).1.dynamic } := by
  rw [mergeChildren, mergeLiterals_eq n hkeys]
  cases hs : s.dynamic with
  | none => rfl
  | some d => cases hn : n.dynamic <;> simp [mergeDynamic, hn]

theorem pairs_eq (n : Node H M) (hkeys : (s.literals.map Prod.fst).Nodup) :
    (mergeLiterals n s.literals).2 ++ (mergeDynamic (mergeLiterals n s.literals).1 s.dynamic).2 =
      (common n s).map Prod.snd := by
  rw [mergeLiterals_eq n hkeys, common, List.map_append, List.map_filterMap]
  refine congrArg₂ _ ?_ ?_
  · refine List.filterMap_congr fun l _ => ?_
    rw [Option.map_map]
    rfl
  · cases hs : s.dynamic with
    | none => rfl
    | some d => cases n.dynamic <;> simp [mergeDynamic]

theorem mem_common (hkeys : (s.literals.map Prod.fst).Nodup) {step : Step} {i j : NodeId} :
    (step, i, j) ∈ common n s ↔ n.next step = some i ∧ s.next step = some j := by
  rw [common, List.mem_append, List.mem_filterMap]
  cases step with
  | literal text =>
      have hlast : (Step.literal text, i, j) ∉
          (s.dynamic.bind fun d => n.dynamic.map fun e => (Step.dynamic, e.node, d.node)).toList := by
        cases s.dynamic <;> cases n.dynamic <;> simp
      rw [or_iff_left hlast]
      constructor
      · rintro ⟨⟨text', j'⟩, hmem, hmap⟩
        obtain ⟨i', hi, heq⟩ := Option.map_eq_some_iff.mp hmap
        cases heq
        exact ⟨hi, (literal?_eq_some_iff hkeys).mpr hmem⟩
      · rintro ⟨hi, hj⟩
        refine ⟨(text, j), (literal?_eq_some_iff hkeys).mp hj, ?_⟩
        have hi' : n.literal? text = some i := hi
        rw [hi', Option.map_some]
  | dynamic =>
      have hfirst : ¬∃ l ∈ s.literals, ((n.literal? l.1).map fun i => (Step.literal l.1, i, l.2)) =
          some (Step.dynamic, i, j) := by
        rintro ⟨l, -, hmap⟩
        obtain ⟨i', -, heq⟩ := Option.map_eq_some_iff.mp hmap
        cases heq
      rw [or_iff_right hfirst]
      cases hs : s.dynamic <;> cases hn : n.dynamic <;> simp [Node.next, hs, hn, eq_comm]

theorem exists_step (hkeys : (s.literals.map Prod.fst).Nodup) {p : NodeId × NodeId}
    (hp : p ∈ (common n s).map Prod.snd) :
    ∃ step, n.next step = some p.1 ∧ s.next step = some p.2 := by
  obtain ⟨⟨step, i, j⟩, hmem, rfl⟩ := List.mem_map.mp hp
  exact ⟨step, (mem_common hkeys).mp hmem⟩

theorem pairwise_common (hkeys : (s.literals.map Prod.fst).Nodup) :
    (common n s).Pairwise fun x y => x.1 ≠ y.1 := by
  rw [common, List.pairwise_append]
  refine ⟨?_, ?_, ?_⟩
  · rw [List.pairwise_filterMap]
    refine (List.pairwise_map.mp hkeys).imp ?_
    intro l l' hne x hx y hy heq
    obtain ⟨i, -, rfl⟩ := Option.map_eq_some_iff.mp hx
    obtain ⟨i', -, rfl⟩ := Option.map_eq_some_iff.mp hy
    exact hne (Step.literal.inj heq)
  · cases s.dynamic <;> cases n.dynamic <;> simp
  · intro x hx y hy
    obtain ⟨l, -, hl⟩ := List.mem_filterMap.mp hx
    obtain ⟨i, -, rfl⟩ := Option.map_eq_some_iff.mp hl
    rw [Option.mem_toList, Option.bind_eq_some_iff] at hy
    obtain ⟨d, -, hd⟩ := hy
    obtain ⟨e, -, rfl⟩ := Option.map_eq_some_iff.mp hd
    exact Step.noConfusion

theorem clashes_mergeChildren (hkeys : (s.literals.map Prod.fst).Nodup) (c : Content H M) :
    (mergeChildren n s).content.Clashes c ↔ n.content.Clashes c := by
  rw [mergeChildren_eq n hkeys]
  rfl

theorem combine_eq (hkeys : (s.literals.map Prod.fst).Nodup) (hs : s.content.Distinct)
    (hfree : ¬n.content.Clashes s.content) :
    mergeContent (mergeChildren n s) s = (none, combine n s) ∧ combine n s =
      { mergeChildren n s with
        patterns := ⟨n.patterns.entries ++ s.patterns.entries⟩
        methods := n.methods ++ s.methods
        fallback := n.fallback.or s.fallback
        middlewares := n.middlewares ++ s.middlewares } := by
  have hmerge := mergeContent_of_free hs (mt (clashes_mergeChildren hkeys s.content).mp hfree)
  rw [combine, hmerge]
  refine ⟨rfl, ?_⟩
  simp only [mergeChildren_eq n hkeys]

section Combine

variable (hkeys : (s.literals.map Prod.fst).Nodup) (hs : s.content.Distinct)
  (hfree : ¬n.content.Clashes s.content)

theorem mergeMethods_children (n : Node H M) (ms : List (String × H)) :
    (mergeMethods n ms).2.literals = n.literals ∧ (mergeMethods n ms).2.dynamic = n.dynamic := by
  induction ms generalizing n with
  | nil => exact ⟨rfl, rfl⟩
  | cons m ms ih =>
      rw [mergeMethods]
      split
      · exact ⟨rfl, rfl⟩
      · exact ih _

theorem mergeFallback_children (n : Node H M) (h : Option H) :
    (mergeFallback n h).2.literals = n.literals ∧ (mergeFallback n h).2.dynamic = n.dynamic := by
  cases h with
  | none => exact ⟨rfl, rfl⟩
  | some h =>
      rw [mergeFallback]
      split <;> exact ⟨rfl, rfl⟩

/-- Wherever it stops, a merge of what nodes hold does not touch their children. -/
theorem mergeContent_children (n s : Node H M) :
    (mergeContent n s).2.literals = n.literals ∧ (mergeContent n s).2.dynamic = n.dynamic := by
  rw [mergeContent]
  generalize n.patterns.merge s.patterns = r
  obtain ⟨_ | e, patterns⟩ := r
  · simp only
    have hmethods := mergeMethods_children { n with patterns } s.methods
    generalize mergeMethods { n with patterns } s.methods = r at hmethods
    obtain ⟨_ | e, m⟩ := r
    · simp only
      have hfallback := mergeFallback_children m s.fallback
      generalize mergeFallback m s.fallback = r at hfallback
      obtain ⟨_ | e, m'⟩ := r
      · exact ⟨hfallback.1.trans hmethods.1, hfallback.2.trans hmethods.2⟩
      · exact ⟨hfallback.1.trans hmethods.1, hfallback.2.trans hmethods.2⟩
    · exact hmethods
  · exact ⟨rfl, rfl⟩

include hkeys

theorem literals_combine : (combine n s).literals =
    n.literals ++ s.literals.filter fun l => (n.literal? l.1).isNone := by
  rw [combine, (mergeContent_children _ s).1, mergeChildren_eq n hkeys]

theorem next_combine (step : Step) :
    (combine n s).next step = (n.next step).or (s.next step) := by
  cases step with
  | literal text =>
      simp only [Node.next, Node.literal?, literals_combine hkeys, List.find?_append,
        Option.map_or]
      cases hfound : (n.literals.find? (·.1 == text)) with
      | some l => rw [Option.map_some, Option.some_or, Option.some_or]
      | none =>
          rw [Option.map_none, Option.none_or, Option.none_or, List.find?_filter]
          refine congrArg _ (congrArg (fun p => List.find? p s.literals) (funext fun l => ?_))
          by_cases hl : l.1 = text
          · subst hl
            simp [hfound]
          · simp [hl]
  | dynamic =>
      simp only [Node.next, combine, (mergeContent_children _ s).2, mergeChildren_eq n hkeys]
      cases hsource : s.dynamic <;> cases htarget : n.dynamic <;> simp [mergeDynamic, htarget]

theorem keys_combine (hn : (n.literals.map Prod.fst).Nodup) :
    ((combine n s).literals.map Prod.fst).Nodup := by
  rw [literals_combine hkeys, List.map_append]
  refine List.nodup_append.mpr ⟨hn, ?_, ?_⟩
  · exact hkeys.sublist (List.filter_sublist.map _)
  · intro x hx y hy hxy
    obtain ⟨l, hl, rfl⟩ := List.mem_map.mp hy
    have hnone := (List.mem_filter.mp hl).2
    rw [Option.isNone_iff_eq_none, literal?_eq_none_iff] at hnone
    exact hnone (hxy ▸ hx)

include hs hfree

theorem content_combine : (combine n s).content = n.content.append s.content := by
  have hnames : ((mergeDynamic n s.dynamic).1.dynamic.map DynamicChild.names).getD [] =
      addNames n.content.names s.content.names := by
    cases hsource : s.dynamic with
    | none => simp [mergeDynamic, Node.content, hsource, addNames]
    | some d =>
        cases htarget : n.dynamic with
        | none =>
            have hd : d.names.Nodup := by
              have hnames := hs.names
              rwa [Node.content, hsource] at hnames
            have hall : addNames [] d.names = d.names := addNames_of_nodup hd
            simp only [mergeDynamic, Node.content, hsource, htarget]
            exact hall.symm
        | some e => simp [mergeDynamic, Node.content, hsource, htarget]
  rw [(combine_eq hkeys hs hfree).2, mergeChildren_eq n hkeys]
  simp only [Node.content] at hnames ⊢
  rw [hnames]
  rfl

end Combine

end Nodes

/-! ## Merging one tree into another -/

variable {t t' t'' : Trie H M} {i j a b k : NodeId} {ps : List (NodeId × NodeId)} {depth : Nat}
  {pos : Position}

/-- No node is below both. -/
def Apart (t : Trie H M) (i j : NodeId) : Prop :=
  ∀ p q k, t.locate i p = some k → t.locate j q ≠ some k

/-- A pair of trees of which one can be merged into the other in so many levels. -/
structure Mergeable (t : Trie H M) (depth : Nat) (i j : NodeId) : Prop where
  target : IsTree t i
  source : IsTree t j
  apart : Apart t i j
  distinct : ∀ {pos b}, t.locate j pos = some b → (t.node b).content.Distinct
  level : ∀ {pos a b}, t.locate i pos = some a → t.locate j pos = some b → pos.length < depth

/-- Contents clash at a position that both of a pair have. -/
def Disagree (t : Trie H M) (ps : List (NodeId × NodeId)) : Prop :=
  ∃ p ∈ ps, ∃ pos a b, t.locate p.1 pos = some a ∧ t.locate p.2 pos = some b ∧
    (t.node a).content.Clashes (t.node b).content

/-- Each target is combined with its source at the positions that both have; all else is as it was. -/
structure Joined (t t' : Trie H M) (ps : List (NodeId × NodeId)) : Prop where
  size : t'.size = t.size
  merged : ∀ {p pos a b}, p ∈ ps → t.locate p.1 pos = some a → t.locate p.2 pos = some b →
    t'.node a = combine (t.node a) (t.node b)
  frame : ∀ {k}, (∀ p ∈ ps, ∀ pos b, t.locate p.1 pos = some k → t.locate p.2 pos ≠ some b) →
    t'.node k = t.node k

/-- How pairs of trees are merged. -/
inductive Outcome (t : Trie H M) (ps : List (NodeId × NodeId)) : Merged × Trie H M → Prop where
  | done {t' : Trie H M} (hjoined : Joined t t' ps) (hagree : ¬Disagree t ps) : Outcome t ps (.done, t')
  | clash {e : RouteTaken} {t' : Trie H M} (h : Disagree t ps) : Outcome t ps (.clash e, t')

/-- A change that leaves all nodes below a node alone. -/
def Keeps (t t' : Trie H M) (i : NodeId) : Prop :=
  ∀ pos k, t.locate i pos = some k → t'.node k = t.node k

theorem Keeps.locate (h : Keeps t t' i) (pos : Position) : t'.locate i pos = t.locate i pos :=
  locate_congr h pos

theorem IsTree.keeps (h : IsTree t i) (hkeeps : Keeps t t' i) (hsize : t.size ≤ t'.size) :
    IsTree t' i := by
  constructor
  · intro pos k hk
    rw [hkeeps.locate] at hk
    exact Nat.lt_of_lt_of_le (h.lt hk) hsize
  · intro p q k hp hq
    rw [hkeeps.locate] at hp hq
    exact h.unique hp hq
  · intro pos k hk
    rw [hkeeps.locate] at hk
    rw [hkeeps pos k hk]
    exact h.keys hk

theorem Apart.keeps (h : Apart t i j) (hi : Keeps t t' i) (hj : Keeps t t' j) : Apart t' i j := by
  intro p q k hp hq
  rw [hi.locate] at hp
  rw [hj.locate] at hq
  exact h p q k hp hq

theorem Mergeable.keeps (h : Mergeable t depth i j) (hi : Keeps t t' i) (hj : Keeps t t' j)
    (hsize : t.size ≤ t'.size) : Mergeable t' depth i j := by
  constructor
  · exact h.target.keeps hi hsize
  · exact h.source.keeps hj hsize
  · exact h.apart.keeps hi hj
  · intro pos b hb
    rw [hj.locate] at hb
    rw [hj pos b hb]
    exact h.distinct hb
  · intro pos a b ha hb
    rw [hi.locate] at ha
    rw [hj.locate] at hb
    exact h.level ha hb

theorem Joined.keeps (h : Joined t t' [(i, j)]) (hapart : Apart t i k) : Keeps t t' k := by
  intro pos l hl
  apply h.frame
  intro p hp pos' b hl'
  rw [List.mem_singleton.mp hp] at hl'
  exact absurd hl (hapart pos' pos l hl')

/-- Two trees at the same step from a pair of trees. -/
theorem Mergeable.sub (h : Mergeable t (depth + 1) i j) {s : Step} (ha : (t.node i).next s = some a)
    (hb : (t.node j).next s = some b) : Mergeable t depth a b := by
  have hi (pos : Position) : t.locate i (s :: pos) = t.locate a pos := locate_cons ha pos
  have hj (pos : Position) : t.locate j (s :: pos) = t.locate b pos := locate_cons hb pos
  constructor
  · exact h.target.sub (hi [])
  · exact h.source.sub (hj [])
  · intro p q k hp hq
    exact h.apart (s :: p) (s :: q) k ((hi p).trans hp) ((hj q).trans hq)
  · intro pos b' hb'
    exact h.distinct ((hj pos).trans hb')
  · intro pos a' b' ha' hb'
    exact Nat.lt_of_succ_lt_succ (h.level ((hi pos).trans ha') ((hj pos).trans hb'))

/-! ### Pairs that are left alone -/

section Kept

variable (hkeeps : ∀ p ∈ ps, Keeps t t' p.1 ∧ Keeps t t' p.2)

include hkeeps

theorem disagree_congr : Disagree t' ps ↔ Disagree t ps := by
  constructor
  · rintro ⟨p, hp, pos, a, b, ha, hb, hclash⟩
    rw [(hkeeps p hp).1.locate] at ha
    rw [(hkeeps p hp).2.locate] at hb
    rw [(hkeeps p hp).1 pos a ha, (hkeeps p hp).2 pos b hb] at hclash
    exact ⟨p, hp, pos, a, b, ha, hb, hclash⟩
  · rintro ⟨p, hp, pos, a, b, ha, hb, hclash⟩
    rw [← (hkeeps p hp).1 pos a ha, ← (hkeeps p hp).2 pos b hb] at hclash
    rw [← (hkeeps p hp).1.locate] at ha
    rw [← (hkeeps p hp).2.locate] at hb
    exact ⟨p, hp, pos, a, b, ha, hb, hclash⟩

theorem Joined.merged_before (h : Joined t' t'' ps) {p : NodeId × NodeId} (hp : p ∈ ps)
    (ha : t.locate p.1 pos = some a) (hb : t.locate p.2 pos = some b) :
    t''.node a = combine (t.node a) (t.node b) := by
  rw [← (hkeeps p hp).1 pos a ha, ← (hkeeps p hp).2 pos b hb]
  rw [← (hkeeps p hp).1.locate] at ha
  rw [← (hkeeps p hp).2.locate] at hb
  exact h.merged hp ha hb

theorem Joined.frame_before (h : Joined t' t'' ps)
    (hout : ∀ p ∈ ps, ∀ pos b, t.locate p.1 pos = some k → t.locate p.2 pos ≠ some b) :
    t''.node k = t'.node k := by
  apply h.frame
  intro p hp pos b hk
  rw [(hkeeps p hp).1.locate] at hk
  rw [(hkeeps p hp).2.locate]
  exact hout p hp pos b hk

end Kept

/-! ### Pairs one after the other -/

section Pairs

variable {r : Merged × Trie H M}

theorem disagree_cons {p : NodeId × NodeId} :
    Disagree t (p :: ps) ↔ Disagree t [p] ∨ Disagree t ps := by
  simp only [Disagree, List.mem_cons, List.not_mem_nil, or_false, exists_eq_or_imp, exists_eq_left]

/-- A pair is merged, then those behind it, which it leaves alone. -/
theorem Outcome.cons (h : Joined t t' [(i, j)]) (hagree : ¬Disagree t [(i, j)])
    (hkeeps : ∀ p ∈ ps, Keeps t t' p.1 ∧ Keeps t t' p.2)
    (hapart : ∀ p ∈ ps, Apart t i p.1) (hrest : Outcome t' ps r) : Outcome t ((i, j) :: ps) r := by
  cases hrest with
  | clash hdisagree => exact .clash (disagree_cons.mpr (Or.inr ((disagree_congr hkeeps).mp hdisagree)))
  | @done t'' hjoined hagree' =>
      refine .done ⟨hjoined.size.trans h.size, ?_, ?_⟩ ?_
      · intro p pos a b hp ha hb
        rcases List.mem_cons.mp hp with rfl | hp
        · rw [← h.merged (List.mem_singleton_self _) ha hb]
          apply hjoined.frame_before hkeeps
          intro q hq pos' b' ha'
          exact absurd ha' (hapart q hq pos pos' a ha)
        · exact hjoined.merged_before hkeeps hp ha hb
      · intro k hout
        have hfirst : t'.node k = t.node k := by
          apply h.frame
          intro p hp
          rw [List.mem_singleton.mp hp]
          exact hout (i, j) List.mem_cons_self
        rw [← hfirst]
        apply hjoined.frame_before hkeeps
        intro p hp
        exact hout p (List.mem_cons_of_mem _ hp)
      · rw [disagree_cons, ← disagree_congr hkeeps, not_or]
        exact ⟨hagree, hagree'⟩

theorem outcome_mergePairs
    (hstep : ∀ {t : Trie H M} {i j}, Mergeable t depth i j →
      Outcome t [(i, j)] (mergeDepth depth t i j))
    (hps : ∀ p ∈ ps, Mergeable t depth p.1 p.2)
    (hapart : ps.Pairwise fun p q => Apart t p.1 q.1 ∧ Apart t p.1 q.2) :
    Outcome t ps (mergeDepth.mergePairs depth t ps) := by
  induction ps generalizing t with
  | nil =>
      rw [mergeDepth.mergePairs]
      refine .done ⟨rfl, ?_, ?_⟩ ?_
      · intro p pos a b hp
        cases hp
      · intro k _
        rfl
      · rintro ⟨p, hp, -⟩
        cases hp
  | cons p ps ih =>
      obtain ⟨i, j⟩ := p
      obtain ⟨hfirst, hrest⟩ := List.pairwise_cons.mp hapart
      have hone := hstep (hps (i, j) List.mem_cons_self)
      rw [mergeDepth.mergePairs]
      generalize hr : mergeDepth depth t i j = r at hone
      cases hone with
      | clash h => exact .clash (disagree_cons.mpr (Or.inl h))
      | @done t' hjoined hagree =>
          have hkeeps : ∀ p ∈ ps, Keeps t t' p.1 ∧ Keeps t t' p.2 := fun p hp =>
            ⟨hjoined.keeps (hfirst p hp).1, hjoined.keeps (hfirst p hp).2⟩
          refine Outcome.cons hjoined hagree hkeeps (fun p hp => (hfirst p hp).1) ?_
          apply ih
          · intro p hp
            exact (hps p (List.mem_cons_of_mem _ hp)).keeps (hkeeps p hp).1 (hkeeps p hp).2
              (Nat.le_of_eq hjoined.size.symm)
          · refine hrest.imp_of_mem ?_
            rintro p q hp hq ⟨h₁, h₂⟩
            exact ⟨h₁.keeps (hkeeps p hp).1 (hkeeps q hq).1, h₂.keeps (hkeeps p hp).1 (hkeeps q hq).2⟩

end Pairs

section Node

variable {r : Merged × Trie H M}

theorem mergeDepth_succ (hne : i ≠ j) (hkeys : ((t.node j).literals.map Prod.fst).Nodup) :
    mergeDepth (depth + 1) t i j =
      match mergeContent (mergeChildren (t.node i) (t.node j)) (t.node j) with
      | (some e, n) => (.clash e, t.setNode i n)
      | (none, n) => mergeDepth.mergePairs depth (t.setNode i n)
          ((common (t.node i) (t.node j)).map Prod.snd) := by
  rw [mergeDepth, if_neg hne, ← pairs_eq (t.node i) hkeys]
  rfl

theorem Mergeable.keeps_child (h : Mergeable t (depth + 1) i j) (n : Node H M) {s : Step}
    (ha : (t.node i).next s = some a) (hb : (t.node j).next s = some b) :
    Keeps t (t.setNode i n) a ∧ Keeps t (t.setNode i n) b := by
  constructor
  · intro pos k hk
    apply node_setNode_of_ne
    rintro rfl
    have hself : t.locate i (s :: pos) = some i := (locate_cons ha _).trans hk
    exact List.cons_ne_nil s pos (h.target.unique hself rfl)
  · intro pos k hk
    apply node_setNode_of_ne
    rintro rfl
    have hself : t.locate j (s :: pos) = some i := (locate_cons hb _).trans hk
    exact h.apart [] (s :: pos) i rfl hself

theorem Mergeable.keeps_common (h : Mergeable t (depth + 1) i j) (n : Node H M) :
    ∀ p ∈ (common (t.node i) (t.node j)).map Prod.snd,
      Keeps t (t.setNode i n) p.1 ∧ Keeps t (t.setNode i n) p.2 := by
  intro p hp
  have hkeys := h.source.keys (show t.locate j [] = some j from rfl)
  obtain ⟨s, hs, hs'⟩ := exists_step hkeys hp
  exact h.keeps_child n hs hs'

/-- Two trees disagree at their roots or below the children that both have. -/
theorem disagree_node (hkeys : ((t.node j).literals.map Prod.fst).Nodup) :
    Disagree t [(i, j)] ↔ (t.node i).content.Clashes (t.node j).content ∨
      Disagree t ((common (t.node i) (t.node j)).map Prod.snd) := by
  constructor
  · rintro ⟨p, hp, pos, a, b, ha, hb, hclash⟩
    obtain rfl := List.mem_singleton.mp hp
    cases pos with
    | nil =>
        obtain rfl := Option.some.inj ha
        obtain rfl := Option.some.inj hb
        exact Or.inl hclash
    | cons s pos =>
        obtain ⟨c, hc, ha⟩ := Option.bind_eq_some_iff.mp ha
        obtain ⟨d, hd, hb⟩ := Option.bind_eq_some_iff.mp hb
        have hmem := (mem_common hkeys).mpr ⟨hc, hd⟩
        exact Or.inr ⟨(c, d), List.mem_map_of_mem hmem, pos, a, b, ha, hb, hclash⟩
  · rintro (hclash | ⟨p, hp, pos, a, b, ha, hb, hclash⟩)
    · exact ⟨(i, j), List.mem_singleton_self _, [], i, j, rfl, rfl, hclash⟩
    · obtain ⟨s, hs, hs'⟩ := exists_step hkeys hp
      refine ⟨(i, j), List.mem_singleton_self _, s :: pos, a, b, ?_, ?_, hclash⟩
      · exact (locate_cons hs _).trans ha
      · exact (locate_cons hs' _).trans hb

/-- A node is combined with its source, then the children that both have are merged. -/
theorem Outcome.node (h : Mergeable t (depth + 1) i j)
    (hfree : ¬(t.node i).content.Clashes (t.node j).content)
    (hrest : Outcome (t.setNode i (combine (t.node i) (t.node j)))
      ((common (t.node i) (t.node j)).map Prod.snd) r) : Outcome t [(i, j)] r := by
  have hi : i < t.size := h.target.lt (show t.locate i [] = some i from rfl)
  have hkeys : ((t.node j).literals.map Prod.fst).Nodup :=
    h.source.keys (show t.locate j [] = some j from rfl)
  have hkeeps := h.keeps_common (combine (t.node i) (t.node j))
  cases hrest with
  | clash hdisagree =>
      exact .clash ((disagree_node hkeys).mpr (Or.inr ((disagree_congr hkeeps).mp hdisagree)))
  | @done t'' hjoined hagree =>
      refine .done ⟨hjoined.size.trans size_setNode, ?_, ?_⟩ ?_
      · intro p pos x y hp hx hy
        obtain rfl := List.mem_singleton.mp hp
        cases pos with
        | nil =>
            obtain rfl := Option.some.inj hx
            obtain rfl := Option.some.inj hy
            rw [hjoined.frame_before hkeeps, node_setNode_self hi]
            intro p hp pos b hloc
            obtain ⟨s, hs, -⟩ := exists_step hkeys hp
            have hcycle : t.locate i (s :: pos) = some i := (locate_cons hs _).trans hloc
            exact absurd (h.target.unique hcycle rfl) (List.cons_ne_nil s pos)
        | cons s pos =>
            obtain ⟨c, hc, hx⟩ := Option.bind_eq_some_iff.mp hx
            obtain ⟨d, hd, hy⟩ := Option.bind_eq_some_iff.mp hy
            have hmem := (mem_common hkeys).mpr ⟨hc, hd⟩
            exact hjoined.merged_before hkeeps (List.mem_map_of_mem hmem) hx hy
      · intro k hout
        have hki : k ≠ i := by
          rintro rfl
          exact hout (k, j) (List.mem_singleton_self _) [] j rfl rfl
        have hold : (t.setNode i (combine (t.node i) (t.node j))).node k = t.node k :=
          node_setNode_of_ne (Ne.symm hki)
        rw [← hold]
        apply hjoined.frame_before hkeeps
        intro p hp pos y hk hy
        obtain ⟨s, hs, hs'⟩ := exists_step hkeys hp
        refine hout (i, j) (List.mem_singleton_self _) (s :: pos) y ?_ ?_
        · exact (locate_cons hs _).trans hk
        · exact (locate_cons hs' _).trans hy
      · rw [disagree_node hkeys, ← disagree_congr hkeeps, not_or]
        exact ⟨hfree, hagree⟩

end Node

theorem outcome_mergeDepth (h : Mergeable t depth i j) :
    Outcome t [(i, j)] (mergeDepth depth t i j) := by
  induction depth generalizing t i j with
  | zero =>
      have hroot : t.locate i [] = some i ∧ t.locate j [] = some j := ⟨rfl, rfl⟩
      exact absurd (h.level hroot.1 hroot.2) (Nat.not_lt_zero _)
  | succ depth ih =>
      have hi : t.locate i [] = some i := rfl
      have hj : t.locate j [] = some j := rfl
      have hne : i ≠ j := by
        rintro rfl
        exact h.apart [] [] i hi hi
      have hkeys := h.source.keys hj
      rw [mergeDepth_succ hne hkeys]
      by_cases hclash : (t.node i).content.Clashes (t.node j).content
      · obtain ⟨e, n, hmerge⟩ := mergeContent_of_clash (h.distinct hj)
          ((clashes_mergeChildren hkeys _).mpr hclash)
        rw [hmerge]
        exact .clash ((disagree_node hkeys).mpr (Or.inl hclash))
      · rw [(combine_eq hkeys (h.distinct hj) hclash).1]
        refine Outcome.node h hclash ?_
        apply outcome_mergePairs ih
        · intro p hp
          obtain ⟨s, hs, hs'⟩ := exists_step hkeys hp
          obtain ⟨hka, hkb⟩ := h.keeps_common (combine (t.node i) (t.node j)) p hp
          exact (h.sub hs hs').keeps hka hkb (Nat.le_of_eq size_setNode.symm)
        · rw [List.pairwise_map]
          refine (pairwise_common hkeys).imp_of_mem ?_
          rintro ⟨s, a, b⟩ ⟨s', a', b'⟩ hmem hmem' hsteps
          obtain ⟨hs, hs'⟩ := (mem_common hkeys).mp hmem
          obtain ⟨hu, hu'⟩ := (mem_common hkeys).mp hmem'
          obtain ⟨hka, -⟩ := h.keeps_child (combine (t.node i) (t.node j)) hs hs'
          obtain ⟨hka', hkb'⟩ := h.keeps_child (combine (t.node i) (t.node j)) hu hu'
          have hfirst : Apart t a a' := by
            intro p q k hp hq
            have hp' : t.locate i (s :: p) = some k := (locate_cons hs _).trans hp
            have hq' : t.locate i (s' :: q) = some k := (locate_cons hu _).trans hq
            exact hsteps (List.cons_eq_cons.mp (h.target.unique hp' hq')).1
          have hsecond : Apart t a b' := by
            intro p q k hp hq
            have hp' : t.locate i (s :: p) = some k := (locate_cons hs _).trans hp
            have hq' : t.locate j (s' :: q) = some k := (locate_cons hu' _).trans hq
            exact h.apart (s :: p) (s' :: q) k hp' hq'
          exact ⟨hfirst.keeps hka hka', hsecond.keeps hka hkb'⟩

/-- Trees that share no node are merged within the limit. -/
theorem outcome_merge (hi : IsTree t i) (hj : IsTree t j) (hapart : Apart t i j)
    (hdistinct : ∀ {pos b}, t.locate j pos = some b → (t.node b).content.Distinct) :
    Outcome t [(i, j)] (t.merge i j) := by
  apply outcome_mergeDepth
  refine ⟨hi, hj, hapart, hdistinct, ?_⟩
  intro pos a b ha _
  have hlength : pos.length < t.size := hi.length_lt ha
  have hsize : 0 < t.size := Nat.zero_lt_of_lt hlength
  calc pos.length
    _ < t.size := hlength
    _ ≤ t.size * t.size := Nat.le_mul_of_pos_left _ hsize
    _ ≤ (t.size * t.weight + 1) * (t.size * t.size) := Nat.le_mul_of_pos_left _ (Nat.succ_pos _)
    _ ≤ t.mergeLimit := Nat.le_succ _

end WebResource.Trie
