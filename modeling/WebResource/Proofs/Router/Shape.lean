import Mathlib.Data.Fintype.Card
import WebResource.Proofs.Router.Dispatch
import WebResource.Proofs.Router.Patterns
import WebResource.Proofs.Router.Plan

namespace WebResource

/-!
# Nodes and positions

A router that is grown by registrations is a tree: each of its nodes is at one position. So a change
of a node is seen at its position and nowhere else.
-/

variable {H M : Type}

namespace Node

def next (n : Node H M) : Trie.Step → Option NodeId
  | .literal s => n.literal? s
  | .dynamic => n.dynamic.map DynamicChild.node

/-- What a node holds, apart from its children. -/
def content (n : Node H M) : Trie.Content H M where
  names := (n.dynamic.map DynamicChild.names).getD []
  methods := n.methods
  fallback := n.fallback
  patterns := n.patterns.entries
  middlewares := n.middlewares

theorem next_empty (s : Trie.Step) : (Node.empty : Node H M).next s = none := by
  cases s <;> rfl

end Node

namespace Trie

variable {t t' t'' : Trie H M} {root i j : NodeId} {p q pos : Position} {s : Step}

/-- The node at a position below a node. -/
def locate (t : Trie H M) (i : NodeId) : Position → Option NodeId
  | [] => some i
  | s :: pos => ((t.node i).next s).bind fun j => t.locate j pos

theorem locate_cons (h : (t.node i).next s = some j) (pos : Position) :
    t.locate i (s :: pos) = t.locate j pos := by
  rw [locate, h, Option.bind_some]

theorem locate_append (t : Trie H M) (i : NodeId) (p q : Position) :
    t.locate i (p ++ q) = (t.locate i p).bind fun j => t.locate j q := by
  induction p generalizing i with
  | nil => rfl
  | cons s p ih =>
      rw [List.cons_append, locate, locate, Option.bind_assoc]
      exact congrArg _ (funext fun j => ih j)

theorem locate_concat (t : Trie H M) (i : NodeId) (p : Position) (s : Step) :
    t.locate i (p ++ [s]) = (t.locate i p).bind fun j => (t.node j).next s := by
  rw [locate_append]
  refine congrArg _ (funext fun j => ?_)
  cases h : (t.node j).next s with
  | none => simp only [locate, h, Option.bind_none]
  | some k => simp only [locate, h, Option.bind_some]

theorem locate_append_of_some (h : t.locate i p = some j) (q : Position) :
    t.locate i (p ++ q) = t.locate j q := by
  rw [locate_append, h]
  rfl

/-- Positions depend only on the nodes that are passed. -/
theorem locate_congr (h : ∀ pos j, t.locate i pos = some j → t'.node j = t.node j) (pos : Position) :
    t'.locate i pos = t.locate i pos := by
  induction pos generalizing i with
  | nil => rfl
  | cons s pos ih =>
      rw [locate, locate, h [] i rfl]
      cases hnext : (t.node i).next s with
      | none => rfl
      | some j =>
          refine ih fun pos k hk => h (s :: pos) k ?_
          rw [locate, hnext]
          exact hk

theorem locate_of_next (h : ∀ j s, (t'.node j).next s = (t.node j).next s) (pos : Position) :
    t'.locate i pos = t.locate i pos := by
  induction pos generalizing i with
  | nil => rfl
  | cons s pos ih =>
      rw [locate, locate, h i s]
      exact congrArg _ (funext fun j => ih)

theorem node_setNode (hi : i < t.size) (n : Node H M) (j : NodeId) :
    (t.setNode i n).node j = if j = i then n else t.node j := by
  split
  · next h =>
      subst h
      exact node_setNode_self hi
  · next h => exact node_setNode_of_ne (Ne.symm h)

theorem locate_setNode (hi : i < t.size) {n : Node H M} (hn : ∀ s, n.next s = (t.node i).next s)
    (pos : Position) : (t.setNode i n).locate root pos = t.locate root pos := by
  refine locate_of_next (fun j s => ?_) pos
  rw [node_setNode hi]
  split
  · next h => rw [hn, h]
  · rfl

theorem setNode_node (t : Trie H M) (i : NodeId) : t.setNode i (t.node i) = t := by
  by_cases hi : i < t.nodes.length
  · rw [setNode, node, List.getElem?_eq_getElem hi, Option.getD_some, List.set_getElem_self]
  · rw [setNode, List.set_eq_of_length_le (Nat.le_of_not_lt hi)]

theorem isSome_method? {n : Node H M} {method : String} :
    (n.method? method).isSome ↔ method ∈ n.methods.map Prod.fst := by
  simp [Node.method?, List.find?_isSome]

/-! ## Trees -/

/-- The nodes below a root are in the trie, each at one position. -/
structure IsTree (t : Trie H M) (root : NodeId) : Prop where
  lt : ∀ {pos i}, t.locate root pos = some i → i < t.size
  unique : ∀ {p q i}, t.locate root p = some i → t.locate root q = some i → p = q
  keys : ∀ {pos i}, t.locate root pos = some i → ((t.node i).literals.map Prod.fst).Nodup

theorem IsTree.sub (h : IsTree t root) (hp : t.locate root p = some i) : IsTree t i := by
  have hsub (pos : Position) : t.locate root (p ++ pos) = t.locate i pos :=
    locate_append_of_some hp pos
  constructor
  · intro pos j hj
    exact h.lt ((hsub pos).trans hj)
  · intro q q' j hq hq'
    exact List.append_cancel_left (h.unique ((hsub q).trans hq) ((hsub q').trans hq'))
  · intro pos j hj
    exact h.keys ((hsub pos).trans hj)

/-- No position of a tree is deeper than the trie has nodes. -/
theorem IsTree.length_lt (h : IsTree t root) (hp : t.locate root p = some i) : p.length < t.size := by
  have hfront (k : Fin (p.length + 1)) : ∃ j : Fin t.size, t.locate root (p.take k) = some j.val := by
    have hsplit : t.locate root (p.take k ++ p.drop k) = some i := by rwa [List.take_append_drop]
    rw [locate_append, Option.bind_eq_some_iff] at hsplit
    obtain ⟨j, hj, -⟩ := hsplit
    exact ⟨⟨j, h.lt hj⟩, hj⟩
  choose node hnode using hfront
  have hinjective : Function.Injective node := by
    intro k l hkl
    have htake : p.take k = p.take l := h.unique (hnode k) (hkl ▸ hnode l)
    have hlength := congrArg List.length htake
    rw [List.length_take_of_le (Nat.le_of_lt_succ k.isLt),
      List.length_take_of_le (Nat.le_of_lt_succ l.isLt)] at hlength
    exact Fin.ext hlength
  have hcard := Fintype.card_le_of_injective node hinjective
  rw [Fintype.card_fin, Fintype.card_fin] at hcard
  exact hcard

/-! ## Growth -/

/-- A change to the nodes below a root that keeps them where they are, and takes only nodes that are
new to the trie. -/
structure Grows (t t' : Trie H M) (root : NodeId) : Prop where
  size : t.size ≤ t'.size
  located : ∀ {pos i}, t.locate root pos = some i → t'.locate root pos = some i
  fresh : ∀ {pos i}, t'.locate root pos = some i → t.locate root pos = some i ∨ t.size ≤ i
  frame : ∀ {i}, i < t.size → (∀ pos, t.locate root pos ≠ some i) → t'.node i = t.node i

theorem Grows.rfl : Grows t t root where
  size := Nat.le_refl _
  located h := h
  fresh h := Or.inl h
  frame _ _ := Eq.refl _

theorem Grows.trans (h : Grows t t' root) (h' : Grows t' t'' root) : Grows t t'' root where
  size := Nat.le_trans h.size h'.size
  located hi := h'.located (h.located hi)
  fresh hi := by
    rcases h'.fresh hi with hi | hi
    · exact h.fresh hi
    · exact Or.inr (Nat.le_trans h.size hi)
  frame hi hout := by
    refine (h'.frame (Nat.lt_of_lt_of_le hi h.size) fun pos hpos => ?_).trans (h.frame hi hout)
    rcases h.fresh hpos with hpos | hle
    · exact hout pos hpos
    · exact absurd hi (Nat.not_lt_of_le hle)

/-- What the nodes below a root hold is what a plan says. -/
structure Shows (t : Trie H M) (root : NodeId) (plan : Plan H M) : Prop where
  located : ∀ pos, (t.locate root pos).isSome = Plan.reaches plan pos
  content : ∀ {pos i}, t.locate root pos = some i → (t.node i).content = Plan.content plan pos

theorem Shows.same {plan plan' : Plan H M} (h : Shows t root plan) (hsame : Plan.Same plan plan') :
    Shows t root plan' where
  located pos := (h.located pos).trans (hsame pos).2
  content hi := (h.content hi).trans (hsame _).1

theorem Shows.isSome_next {plan : Plan H M} (h : Shows t root plan)
    (hi : t.locate root pos = some i) (s : Step) :
    ((t.node i).next s).isSome = plan.reaches (pos ++ [s]) := by
  rw [← h.located, locate_concat, hi, Option.bind_some]

/-- A tree whose nodes hold what a plan says. -/
structure Draws (t : Trie H M) (root : NodeId) (plan : Plan H M) : Prop extends
  IsTree t root, Shows t root plan

/-! ## Children -/

/-- A child that a step leads to, found or made: the node it is made from gets the name of the step,
and the others stay as they are. -/
structure MakesChild (t : Trie H M) (i : NodeId) (s : PatternSegment) (j : NodeId) (t' : Trie H M) :
    Prop where
  size : t.size ≤ t'.size
  next : ∀ s', (t'.node i).next s' = if s' = s.step then some j else (t.node i).next s'
  old : ∀ {k}, (t.node i).next s.step = some k → j = k
  new : (t.node i).next s.step = none → j = t.size ∧ t.size < t'.size
  content : (t'.node i).content =
    (t.node i).content.append { Content.empty with names := s.name?.toList }
  keys : ((t.node i).literals.map Prod.fst).Nodup → ((t'.node i).literals.map Prod.fst).Nodup
  frame : ∀ {k}, k ≠ i → t'.node k = t.node k

theorem literal?_append_singleton (n : Node H M) (s s' : String) (j : NodeId)
    (hs : n.literal? s = none) :
    { n with literals := n.literals ++ [(s, j)] }.literal? s' =
      if s' = s then some j else n.literal? s' := by
  simp only [Node.literal?, Option.map_eq_none_iff] at hs ⊢
  rw [List.find?_append]
  split
  · next h => simp [h, hs]
  · next h =>
      have hlast : [(s, j)].find? (·.1 == s') = none := by simp [Ne.symm h]
      rw [hlast, Option.or_none]

theorem literal?_eq_none_iff {n : Node H M} {s : String} :
    n.literal? s = none ↔ s ∉ n.literals.map Prod.fst := by
  rw [Node.literal?, Option.map_eq_none_iff, List.find?_eq_none]
  simp only [beq_iff_eq, List.mem_map, not_exists, not_and]

theorem makesChild_found {s : PatternSegment} {n : Node H M} (hself : t'.node i = n)
    (hframe : ∀ {k}, k ≠ i → t'.node k = t.node k) (hsize : t'.size = t.size)
    (hj : (t.node i).next s.step = some j) (hnext : ∀ s', n.next s' = (t.node i).next s')
    (hkeys : n.literals = (t.node i).literals)
    (hcontent : n.content =
      (t.node i).content.append { Content.empty with names := s.name?.toList }) :
    MakesChild t i s j t' := by
  constructor
  · exact Nat.le_of_eq hsize.symm
  · intro s'
    rw [hself, hnext]
    split
    · next h => rw [h, hj]
    · rfl
  · intro k hk
    exact Option.some.inj (hj.symm.trans hk)
  · intro hnone
    rw [hj] at hnone
    cases hnone
  · rw [hself, hcontent]
  · rw [hself, hkeys]
    exact id
  · exact hframe

theorem makesChild_new {s : PatternSegment} {n : Node H M} (hi : i < t.size)
    (hnone : (t.node i).next s.step = none)
    (hnext : ∀ s', n.next s' = if s' = s.step then some t.size else (t.node i).next s')
    (hkeys : ((t.node i).literals.map Prod.fst).Nodup → (n.literals.map Prod.fst).Nodup)
    (hcontent : n.content =
      (t.node i).content.append { Content.empty with names := s.name?.toList }) :
    MakesChild t i s t.size (t.addNode.2.setNode i n) := by
  have hi' : i < t.addNode.2.size := by rw [size_addNode]; exact Nat.lt_succ_of_lt hi
  have hself : (t.addNode.2.setNode i n).node i = n := node_setNode_self hi'
  have hsize : (t.addNode.2.setNode i n).size = t.size + 1 := by rw [size_setNode, size_addNode]
  constructor
  · rw [hsize]
    exact Nat.le_succ _
  · intro s'
    rw [hself, hnext]
  · intro k hk
    rw [hnone] at hk
    cases hk
  · intro _
    exact ⟨rfl, hsize ▸ Nat.lt_succ_self _⟩
  · rw [hself, hcontent]
  · rw [hself]
    exact hkeys
  · intro k hk
    rw [node_setNode_of_ne (Ne.symm hk), node_addNode]

theorem makesChild_literalChild (hi : i < t.size) {s : PatternSegment} {text : String}
    (hs : s = .literal text) :
    MakesChild t i s (t.literalChild i text).1 (t.literalChild i text).2 := by
  subst hs
  have hnext : (t.node i).next (PatternSegment.literal text).step = (t.node i).literal? text := rfl
  cases hfound : (t.node i).literal? text with
  | some j =>
      have hchild : t.literalChild i text = (j, t) := by simp only [literalChild, hfound]
      rw [hchild]
      apply makesChild_found rfl (fun _ => rfl) rfl (hnext.trans hfound) (fun _ => rfl) rfl
      exact (Content.append_empty _).symm
  | none =>
      have hchild : t.literalChild i text = (t.size, t.addNode.2.setNode i
          { t.node i with literals := (t.node i).literals ++ [(text, t.size)] }) := by
        simp only [literalChild, hfound]
        rfl
      rw [hchild]
      apply makesChild_new hi (hnext.trans hfound)
      · intro s'
        cases s' with
        | literal text' =>
            simp only [Node.next, PatternSegment.step, Step.literal.injEq]
            exact literal?_append_singleton _ _ _ _ hfound
        | dynamic => rfl
      · intro hkeys
        simp only [List.map_append, List.map_singleton]
        refine List.nodup_append.mpr ⟨hkeys, List.nodup_singleton text, fun x hx y hy hxy => ?_⟩
        rw [hxy, List.mem_singleton.mp hy] at hx
        exact literal?_eq_none_iff.mp hfound hx
      · exact (Content.append_empty _).symm

theorem makesChild_dynamicChild (hi : i < t.size) (name : String) :
    MakesChild t i (.dynamic name) (t.dynamicChild i name).1 (t.dynamicChild i name).2 := by
  cases hfound : (t.node i).dynamic with
  | some d =>
      have hchild : t.dynamicChild i name = (d.node, t.setNode i
          { t.node i with dynamic := some { d with names := addNames d.names [name] } }) := by
        simp only [dynamicChild, hfound]
      have hnext : (t.node i).next (PatternSegment.dynamic name).step = some d.node := by
        simp only [PatternSegment.step, Node.next, hfound, Option.map_some]
      rw [hchild]
      apply makesChild_found (node_setNode_self hi) (fun h => node_setNode_of_ne (Ne.symm h))
        size_setNode hnext
      · intro s'
        cases s' with
        | literal text => rfl
        | dynamic => exact hnext.symm
      · rfl
      · simp [Node.content, Content.append, Content.empty, hfound, PatternSegment.name?]
  | none =>
      have hchild : t.dynamicChild i name = (t.size, t.addNode.2.setNode i
          { t.node i with dynamic := some ⟨[name], t.size⟩ }) := by
        simp only [dynamicChild, hfound]
        rfl
      have hnext : (t.node i).next (PatternSegment.dynamic name).step = none := by
        simp only [PatternSegment.step, Node.next, hfound, Option.map_none]
      rw [hchild]
      apply makesChild_new hi hnext
      · intro s'
        cases s' with
        | literal text => rfl
        | dynamic => rfl
      · exact id
      · simp [Node.content, Content.append, Content.empty, hfound, PatternSegment.name?, addNames]

theorem child_of_colon {s : String} {name : List Char} (h : s.toList = ':' :: name) :
    t.child i s = t.dynamicChild i (String.ofList name) := by
  simp only [child, h]

theorem child_of_plain {s : String} (h : ∀ name, s.toList ≠ ':' :: name) :
    t.child i s = t.literalChild i s := by
  unfold child
  split
  · next name hname => exact absurd hname (h name)
  · rfl

theorem makesChild_child (hi : i < t.size) (s : String) :
    MakesChild t i (.read s) (t.child i s).1 (t.child i s).2 := by
  by_cases hs : ∃ name, s.toList = ':' :: name
  · obtain ⟨name, hname⟩ := hs
    rw [child_of_colon hname, PatternSegment.read_of_colon hname]
    exact makesChild_dynamicChild hi _
  · have hplain : ∀ name, s.toList ≠ ':' :: name := fun name hname => hs ⟨name, hname⟩
    rw [child_of_plain hplain, PatternSegment.read_of_plain hplain]
    exact makesChild_literalChild hi rfl

section Child

variable {s : PatternSegment} {plan : Plan H M} {path : Pattern}

theorem MakesChild.locate (h : MakesChild t i s j t') (ht : IsTree t root)
    (hp : t.locate root p = some i) (pos : Position) :
    t'.locate root pos = if pos = p ++ [s.step] then some j else t.locate root pos := by
  have hi : i < t.size := ht.lt hp
  induction pos using List.reverseRecOn with
  | nil => rw [if_neg (by simp)]; rfl
  | append_singleton pos s' ih =>
      rw [locate_concat, locate_concat, ih]
      by_cases hpos : pos = p ++ [s.step]
      · -- Below the child there is nothing yet, or what there was.
        subst hpos
        rw [if_pos rfl, if_neg (by simp), locate_concat, hp, Option.bind_some, Option.bind_some]
        cases hnext : (t.node i).next s.step with
        | some k =>
            have hji : j ≠ i := by
              rintro rfl
              have hself := ht.unique ((locate_concat t root p s.step).trans
                (by rw [hp]; exact hnext.trans (h.old hnext ▸ rfl))) hp
              simp at hself
            rw [h.frame hji, h.old hnext]
            rfl
        | none =>
            obtain ⟨rfl, -⟩ := h.new hnext
            rw [h.frame (Nat.ne_of_gt hi), node_of_le (Nat.le_refl _), Node.next_empty]
            rfl
      · rw [if_neg hpos]
        cases hk : t.locate root pos with
        | none =>
            rw [if_neg]
            · rfl
            · intro hlast
              obtain ⟨rfl, -⟩ := List.append_inj' hlast rfl
              rw [hp] at hk
              cases hk
        | some k =>
            rw [Option.bind_some, Option.bind_some]
            by_cases hki : k = i
            · subst hki
              obtain rfl := ht.unique hk hp
              simp [h.next]
            · rw [h.frame hki, if_neg]
              intro hlast
              obtain ⟨rfl, -⟩ := List.append_inj' hlast rfl
              exact hki (Option.some.inj (hk.symm.trans hp))

theorem MakesChild.located (h : MakesChild t i s j t') (ht : IsTree t root)
    (hp : t.locate root p = some i) : t'.locate root (p ++ [s.step]) = some j := by
  rw [h.locate ht hp, if_pos rfl]

theorem MakesChild.grows (h : MakesChild t i s j t') (ht : IsTree t root)
    (hp : t.locate root p = some i) : Grows t t' root := by
  have hchild : t.locate root (p ++ [s.step]) = (t.node i).next s.step := by
    rw [locate_concat, hp, Option.bind_some]
  constructor
  · exact h.size
  · intro pos k hk
    rw [h.locate ht hp]
    split
    · next hpos =>
        subst hpos
        rw [h.old (hchild.symm.trans hk)]
    · exact hk
  · intro pos k hk
    rw [h.locate ht hp] at hk
    split at hk
    · next hpos =>
        obtain rfl := Option.some.inj hk
        subst hpos
        cases hnext : (t.node i).next s.step with
        | some k => exact Or.inl (hchild.trans (h.old hnext ▸ hnext))
        | none => exact Or.inr (Nat.le_of_eq (h.new hnext).1.symm)
    · exact Or.inl hk
  · intro k _ hout
    apply h.frame
    rintro rfl
    exact hout p hp

theorem MakesChild.isTree (h : MakesChild t i s j t') (ht : IsTree t root)
    (hp : t.locate root p = some i) : IsTree t' root := by
  have hi : i < t.size := ht.lt hp
  have hj {pos : Position} (hpos : t.locate root pos = some j) : pos = p ++ [s.step] := by
    cases hnext : (t.node i).next s.step with
    | some k =>
        have hchild : t.locate root (p ++ [s.step]) = some j := by
          rw [locate_concat, hp, Option.bind_some, hnext, h.old hnext]
        exact ht.unique hpos hchild
    | none =>
        have hlt := ht.lt hpos
        rw [(h.new hnext).1] at hlt
        exact absurd hlt (Nat.lt_irrefl _)
  constructor
  · intro pos k hk
    rcases (h.grows ht hp).fresh hk with hold | hnew
    · exact Nat.lt_of_lt_of_le (ht.lt hold) h.size
    · rw [h.locate ht hp] at hk
      split at hk
      · obtain rfl := Option.some.inj hk
        cases hnext : (t.node i).next s.step with
        | some k =>
            have hlt : k < t.size := ht.lt ((locate_concat t root p s.step).trans (by rw [hp]; exact hnext))
            exact absurd hlt (Nat.not_lt_of_le (h.old hnext ▸ hnew))
        | none =>
            obtain ⟨rfl, hlt⟩ := h.new hnext
            exact hlt
      · exact Nat.lt_of_lt_of_le (ht.lt hk) h.size
  · intro q q' k hq hq'
    rw [h.locate ht hp] at hq hq'
    split at hq <;> split at hq'
    · next hq1 hq2 => exact hq1.trans hq2.symm
    · next hq1 _ =>
        obtain rfl := Option.some.inj hq
        exact hq1.trans (hj hq').symm
    · next _ hq2 =>
        obtain rfl := Option.some.inj hq'
        exact (hj hq).trans hq2.symm
    · exact ht.unique hq hq'
  · intro pos k hk
    by_cases hki : k = i
    · subst hki
      exact h.keys (ht.keys hp)
    · rw [h.frame hki]
      rcases (h.grows ht hp).fresh hk with hold | hnew
      · exact ht.keys hold
      · rw [node_of_le hnew]
        exact List.nodup_nil

theorem MakesChild.draws (h : MakesChild t i s j t') (ht : Draws t root plan)
    (hp : t.locate root (Pattern.position path) = some i) (hpath : Plan.Covers plan path) :
    Draws t' root (plan ++ [⟨path ++ [s], .view⟩]) where
  toIsTree := h.isTree ht.toIsTree hp
  located pos := by
    rw [h.locate ht.toIsTree hp, Plan.reaches_child hpath, ← ht.located pos]
    by_cases hpos : pos = Pattern.position path ++ [s.step]
    · rw [if_pos hpos, decide_eq_true hpos, Bool.or_true]
      rfl
    · rw [if_neg hpos, decide_eq_false hpos, Bool.or_false]
  content := by
    intro pos k hk
    have hi' : t'.locate root (Pattern.position path) = some i :=
      (h.grows ht.toIsTree hp).located hp
    rw [Plan.content_child hpath]
    split
    · next hpos =>
        subst hpos
        obtain rfl := Option.some.inj (hi'.symm.trans hk)
        rw [h.content, ht.content hp]
    · next hpos =>
        have hki : k ≠ i := by
          rintro rfl
          exact hpos ((h.isTree ht.toIsTree hp).unique hk hi')
        rw [h.frame hki]
        cases hold : t.locate root pos with
        | some k' =>
            obtain rfl := Option.some.inj (((h.grows ht.toIsTree hp).located hold).symm.trans hk)
            exact ht.content hold
        | none =>
            have hreach : Plan.reaches plan pos = false := by rw [← ht.located pos, hold]; rfl
            rcases (h.grows ht.toIsTree hp).fresh hk with hk | hnew
            · rw [hold] at hk
              cases hk
            · rw [node_of_le hnew, Plan.content_of_not_reaches hreach]
              rfl

end Child

theorem Draws.same {plan plan' : Plan H M} (h : Draws t root plan) (hsame : Plan.Same plan plan') :
    Draws t root plan' := ⟨h.toIsTree, h.toShows.same hsame⟩

/-! ## Nodes of patterns -/

section Pattern

variable {plan : Plan H M} {path : Pattern}

/-- The node of a pattern below a root, in the trie that has it. -/
structure HasNode (t : Trie H M) (root : NodeId) (plan : Plan H M) (path : Pattern)
    (r : NodeId × Trie H M) : Prop where
  draws : Draws r.2 root (plan ++ [⟨path, .view⟩])
  located : r.2.locate root (Pattern.position path) = some r.1
  grows : Grows t r.2 root

theorem Draws.hasNode_descend (h : Draws t root plan)
    (hp : t.locate root (Pattern.position path) = some i) (hpath : Plan.Covers plan path)
    (segments : List String) :
    HasNode t root plan (path ++ segments.map PatternSegment.read) (t.descend i segments) := by
  induction segments generalizing t i path plan with
  | nil =>
      rw [List.map_nil, List.append_nil]
      exact ⟨h.same (Plan.same_view hpath).symm, hp, Grows.rfl⟩
  | cons s segments ih =>
      have hchild := makesChild_child (h.lt hp) s
      have hlocated : (t.child i s).2.locate root (Pattern.position (path ++ [.read s])) =
          some (t.child i s).1 := by
        rw [Pattern.position_append]
        exact hchild.located h.toIsTree hp
      obtain ⟨hdraws, hend, hgrows⟩ :=
        ih (hchild.draws h hp hpath) hlocated (Plan.covers_last plan ⟨path ++ [.read s], .view⟩)
      rw [List.append_assoc path] at hdraws hend
      have hprefix : path ++ [.read s] <+: path ++ (s :: segments).map PatternSegment.read :=
        ⟨segments.map PatternSegment.read, List.append_assoc path [.read s] _⟩
      constructor
      · exact hdraws.same (Plan.same_view_append plan (r := ⟨_, .view⟩) hprefix)
      · exact hend
      · exact (hchild.grows h.toIsTree hp).trans hgrows

theorem Draws.hasNode_nodeAt (h : Draws t root plan)
    (hp : t.locate root (Pattern.position path) = some i) (hcovers : Plan.Covers plan path)
    (below : String) :
    HasNode t root plan (path ++ Pattern.ofPath below) (t.nodeAt i below) :=
  h.hasNode_descend hp hcovers (Path.segments below)

variable {n : Node H M}

theorem next_congr {n m : Node H M} (hliterals : n.literals = m.literals)
    (hdynamic : n.dynamic = m.dynamic) (s : Step) : n.next s = m.next s := by
  cases s with
  | literal text => simp only [Node.next, Node.literal?, hliterals]
  | dynamic => simp only [Node.next, hdynamic]

theorem grows_setNode (hp : t.locate root p = some i) (hi : i < t.size)
    (hliterals : n.literals = (t.node i).literals) (hdynamic : n.dynamic = (t.node i).dynamic) :
    Grows t (t.setNode i n) root := by
  have hlocate (pos : Position) : (t.setNode i n).locate root pos = t.locate root pos :=
    locate_setNode hi (next_congr hliterals hdynamic) pos
  constructor
  · exact Nat.le_of_eq size_setNode.symm
  · intro pos k hk
    rw [hlocate, hk]
  · intro pos k hk
    rw [hlocate] at hk
    exact Or.inl hk
  · intro k _ hout
    apply node_setNode_of_ne
    rintro rfl
    exact hout p hp

/-- An item that is added to the node of a pattern, which then is registered there. -/
theorem Draws.register {r : Registration H M} (h : Draws t root (plan ++ [⟨r.pattern, .view⟩]))
    (hp : t.locate root r.position = some i)
    (hliterals : n.literals = (t.node i).literals) (hdynamic : n.dynamic = (t.node i).dynamic)
    (hcontent : n.content = (t.node i).content.append r.item.content) :
    Draws (t.setNode i n) root (plan ++ [r]) := by
  have hi : i < t.size := h.lt hp
  have hlocate (pos : Position) : (t.setNode i n).locate root pos = t.locate root pos :=
    locate_setNode hi (next_congr hliterals hdynamic) pos
  constructor
  · constructor
    · intro pos k hk
      rw [hlocate] at hk
      rw [size_setNode]
      exact h.lt hk
    · intro q q' k hq hq'
      rw [hlocate] at hq hq'
      exact h.unique hq hq'
    · intro pos k hk
      rw [hlocate] at hk
      rw [node_setNode hi]
      split
      · rw [hliterals]
        exact h.keys hp
      · exact h.keys hk
  · constructor
    · intro pos
      rw [hlocate, h.located, ← Plan.reaches_view]
    · intro pos k hk
      rw [hlocate] at hk
      rw [Plan.content_view, node_setNode hi]
      by_cases hpos : r.position = pos
      · subst hpos
        obtain rfl := Option.some.inj (hk.symm.trans hp)
        rw [if_pos rfl, if_pos rfl, hcontent, h.content hp]
      · have hki : k ≠ i := by
          rintro rfl
          exact hpos (h.unique hp hk)
        rw [if_neg hpos, if_neg hki, h.content hk]

end Pattern

end Trie

end WebResource
