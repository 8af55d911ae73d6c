import WebResource.Proofs.Router.Shape

namespace WebResource.Trie

/-!
# The way of a pattern

Routers that have been merged may share nodes, and a node may be below itself. Whatever the graph, the
nodes on the way of a pattern are all that change when the pattern gets a node, and each of them changes
only in the step that the pattern takes there.
-/

variable {H M : Type} {t t' t'' : Trie H M} {i j k c : NodeId} {s : Step} {x : PatternSegment}
  {p : Pattern} {pos rest : Position}

/-- The part of a position that is left at a node on the way there. -/
def Ahead (t : Trie H M) (i : NodeId) (pos : Position) (k : NodeId) (rest : Position) : Prop :=
  ∃ front, front ++ rest = pos ∧ t.locate i front = some k

/-- All children are nodes of the trie, and no segment has two. -/
structure Sound (t : Trie H M) : Prop where
  keys : ∀ k, ((t.node k).literals.map Prod.fst).Nodup
  lt : ∀ {k s c}, (t.node k).next s = some c → c < t.size

theorem lt_of_next (h : (t.node k).next s = some c) : k < t.size := by
  by_contra hk
  rw [node_of_le (Nat.le_of_not_lt hk), Node.next_empty] at h
  cases h

theorem next_of_dynamic {n : Node H M} {d : DynamicChild} (hd : n.dynamic = some d) :
    n.next .dynamic = some d.node := by
  rw [Node.next, hd, Option.map_some]

theorem lt_of_locate (h : t.locate i pos = some k) (hk : k < t.size) : i < t.size := by
  cases pos with
  | nil =>
      obtain rfl := Option.some.inj h
      exact hk
  | cons s pos =>
      obtain ⟨c, hc, -⟩ := Option.bind_eq_some_iff.mp h
      exact lt_of_next hc

theorem Sound.lt_locate (ht : Sound t) (hi : i < t.size) (h : t.locate i pos = some k) :
    k < t.size := by
  induction pos generalizing i with
  | nil =>
      obtain rfl := Option.some.inj h
      exact hi
  | cons s pos ih =>
      obtain ⟨c, hc, hk⟩ := Option.bind_eq_some_iff.mp h
      exact ih (ht.lt hc) hk

/-- The dynamic child of a node is known by its node and its names. -/
theorem dynamic_eq {n m : Node H M} (hnext : n.next .dynamic = m.next .dynamic)
    (hnames : n.content.names = m.content.names) : n.dynamic = m.dynamic := by
  simp only [Node.next, Node.content] at hnext hnames
  cases hn : n.dynamic with
  | none =>
      rw [hn, Option.map_none] at hnext
      exact (Option.map_eq_none_iff.mp hnext.symm).symm
  | some d =>
      rw [hn, Option.map_some] at hnext
      obtain ⟨e, he, hnode⟩ := Option.map_eq_some_iff.mp hnext.symm
      rw [hn, he, Option.map_some, Option.map_some, Option.getD_some, Option.getD_some] at hnames
      obtain ⟨names, node⟩ := d
      obtain ⟨names', node'⟩ := e
      rw [he]
      exact congrArg some (congrArg₂ DynamicChild.mk hnames hnode.symm)

/-- Nodes that hold the same, whatever their children. -/
structure Alike (n m : Node H M) : Prop where
  methods : n.methods = m.methods
  fallback : n.fallback = m.fallback
  patterns : n.patterns = m.patterns
  middlewares : n.middlewares = m.middlewares

theorem alike_of_content {n m : Node H M} {names : List String}
    (h : n.content = m.content.append { Content.empty with names }) : Alike n m := by
  constructor
  · exact (congrArg Content.methods h).trans (List.append_nil _)
  · exact (congrArg Content.fallback h).trans Option.or_none
  · exact congrArg PatternTable.mk ((congrArg Content.patterns h).trans (List.append_nil _))
  · exact (congrArg Content.middlewares h).trans (List.append_nil _)

/-! ## Links that stay -/

/-- Links stay, and new ones lead to new nodes. -/
structure Extends (t t' : Trie H M) : Prop where
  size : t.size ≤ t'.size
  kept : ∀ {k s c}, (t.node k).next s = some c → (t'.node k).next s = some c
  fresh : ∀ {k s c}, (t'.node k).next s = some c → (t.node k).next s = some c ∨ t.size ≤ c

theorem Extends.rfl : Extends t t := ⟨Nat.le_refl _, id, Or.inl⟩

theorem Extends.trans (h : Extends t t') (h' : Extends t' t'') : Extends t t'' where
  size := Nat.le_trans h.size h'.size
  kept hc := h'.kept (h.kept hc)
  fresh hc := by
    rcases h'.fresh hc with hc | hle
    · exact h.fresh hc
    · exact Or.inr (Nat.le_trans h.size hle)

theorem Extends.locate (h : Extends t t') (hk : t.locate i pos = some k) :
    t'.locate i pos = some k := by
  induction pos generalizing i with
  | nil => exact hk
  | cons s pos ih =>
      obtain ⟨c, hc, hk⟩ := Option.bind_eq_some_iff.mp hk
      exact (locate_cons (h.kept hc) pos).trans (ih hk)

theorem node_setNode_cases (t : Trie H M) (i : NodeId) (n : Node H M) (k : NodeId) :
    (t.setNode i n).node k = t.node k ∨ k = i ∧ (t.setNode i n).node k = n := by
  by_cases hi : i < t.size
  · rw [node_setNode hi]
    split
    · next hki => exact Or.inr ⟨hki, Eq.refl n⟩
    · exact Or.inl (Eq.refl _)
  · left
    rw [setNode, List.set_eq_of_length_le (Nat.le_of_not_lt hi)]

/-- What a node has in common with the one that it replaces is as it was at all nodes. -/
theorem field_setNode {α : Type} {n : Node H M} (f : Node H M → α) (hf : f n = f (t.node i))
    (k : NodeId) : f ((t.setNode i n).node k) = f (t.node k) := by
  rcases node_setNode_cases t i n k with hk | ⟨hki, hk⟩
  · rw [hk]
  · rw [hk, hf, hki]

theorem extends_setNode {n : Node H M} (hnext : ∀ s, n.next s = (t.node i).next s) :
    Extends t (t.setNode i n) := by
  have hsame (k : NodeId) (s : Step) : ((t.setNode i n).node k).next s = (t.node k).next s :=
    field_setNode (fun m => m.next s) (hnext s) k
  constructor
  · exact Nat.le_of_eq size_setNode.symm
  · intro k s c hc
    exact (hsame k s).trans hc
  · intro k s c hc
    exact Or.inl ((hsame k s).symm.trans hc)

/-- An old node is where it was: no way leads back from the new nodes to the old ones. -/
theorem Extends.locate_old (h : Extends t t') (hk : t'.locate i pos = some k) (hlt : k < t.size) :
    t.locate i pos = some k := by
  induction pos generalizing i with
  | nil => exact hk
  | cons s pos ih =>
      obtain ⟨c, hc, hk⟩ := Option.bind_eq_some_iff.mp hk
      have hold := ih hk
      rcases h.fresh hc with hc | hle
      · exact (locate_cons hc pos).trans hold
      · exact absurd (lt_of_locate hold hlt) (Nat.not_lt_of_le hle)

/-! ## Nodes of patterns -/

/-- All names in a pattern have been recorded where the pattern has them. -/
def Known (t : Trie H M) : NodeId → Pattern → Prop
  | _, [] => True
  | i, x :: p =>
      (∀ name, x.name? = some name → name ∈ (t.node i).content.names) ∧
        ∀ j, (t.node i).next x.step = some j → t.Known j p

/-- A pattern has a node below another one, in a trie that is as it was but for what the pattern needs
there. -/
structure Opens (t : Trie H M) (i : NodeId) (p : Pattern) (j : NodeId) (t' : Trie H M) : Prop
    extends Extends t t' where
  sound : Sound t'
  lt : j < t'.size
  located : t'.locate i (Pattern.position p) = some j
  known : t'.Known i p
  content : ∀ k, ∃ names : List String, (∀ name ∈ names, name ∈ p.filterMap PatternSegment.name?) ∧
    (t'.node k).content = (t.node k).content.append { Content.empty with names }
  next : ∀ {k s}, k < t.size → (∀ rest, ¬Ahead t i (Pattern.position p) k (s :: rest)) →
    (t'.node k).next s = (t.node k).next s
  names : ∀ {k}, k < t.size → (∀ rest, ¬Ahead t i (Pattern.position p) k (.dynamic :: rest)) →
    (t'.node k).content.names = (t.node k).content.names
  frame : ∀ {k}, k < t.size → (∀ rest, ¬Ahead t i (Pattern.position p) k rest) →
    t'.node k = t.node k

theorem Opens.alike (h : Opens t i p j t') (k : NodeId) : Alike (t'.node k) (t.node k) := by
  obtain ⟨names, -, hcontent⟩ := h.content k
  exact alike_of_content hcontent

/-- The node of a pattern is new, or the pattern had it before. -/
theorem Opens.ahead_end (h : Opens t i p j t') (hj : j < t.size) :
    Ahead t i (Pattern.position p) j [] :=
  ⟨Pattern.position p, List.append_nil _, h.locate_old h.located hj⟩

theorem opens_nil (ht : Sound t) (hi : i < t.size) : Opens t i [] i t where
  toExtends := Extends.rfl
  sound := ht
  lt := hi
  located := rfl
  known := trivial
  content _ := ⟨[], nofun, (Content.append_empty _).symm⟩
  next _ _ := rfl
  names _ _ := rfl
  frame _ _ := rfl

theorem MakesChild.extends (h : MakesChild t i x j t') : Extends t t' where
  size := h.size
  kept := by
    intro k s c hc
    by_cases hk : k = i
    · subst hk
      rw [h.next]
      split
      · next hs => rw [h.old (hs ▸ hc)]
      · exact hc
    · rwa [h.frame hk]
  fresh := by
    intro k s c hc
    by_cases hk : k = i
    · subst hk
      rw [h.next] at hc
      split at hc
      · next hs =>
          obtain rfl := Option.some.inj hc
          cases hnext : (t.node k).next x.step with
          | some c => exact Or.inl (hs ▸ h.old hnext ▸ hnext)
          | none => exact Or.inr (Nat.le_of_eq (h.new hnext).1.symm)
      · exact Or.inl hc
    · rw [h.frame hk] at hc
      exact Or.inl hc

theorem MakesChild.lt (ht : Sound t) (h : MakesChild t i x j t') : j < t'.size := by
  cases hnext : (t.node i).next x.step with
  | some c => exact h.old hnext ▸ Nat.lt_of_lt_of_le (ht.lt hnext) h.size
  | none =>
      obtain ⟨rfl, hlt⟩ := h.new hnext
      exact hlt

theorem MakesChild.sound (ht : Sound t) (h : MakesChild t i x j t') : Sound t' where
  keys := by
    intro k
    by_cases hk : k = i
    · subst hk
      exact h.keys (ht.keys k)
    · rw [h.frame hk]
      exact ht.keys k
  lt := by
    intro k s c hc
    by_cases hk : k = i
    · subst hk
      rw [h.next] at hc
      split at hc
      · obtain rfl := Option.some.inj hc
        exact h.lt ht
      · exact Nat.lt_of_lt_of_le (ht.lt hc) h.size
    · rw [h.frame hk] at hc
      exact Nat.lt_of_lt_of_le (ht.lt hc) h.size

theorem MakesChild.opens (ht : Sound t) (h : MakesChild t i x j t') : Opens t i [x] j t' where
  toExtends := h.extends
  sound := h.sound ht
  lt := h.lt ht
  located := by
    have hnext : (t'.node i).next x.step = some j := by rw [h.next, if_pos rfl]
    exact locate_cons hnext []
  known := by
    refine ⟨?_, fun _ _ => trivial⟩
    intro name hname
    rw [h.content]
    exact mem_addNames.mpr (Or.inr (Option.mem_toList.mpr hname))
  content := by
    intro k
    by_cases hk : k = i
    · subst hk
      refine ⟨x.name?.toList, ?_, h.content⟩
      intro name hname
      exact List.mem_filterMap.mpr ⟨x, List.mem_singleton_self x, Option.mem_toList.mp hname⟩
    · refine ⟨[], nofun, ?_⟩
      rw [h.frame hk]
      exact (Content.append_empty _).symm
  next := by
    intro k s hk hout
    by_cases hki : k = i
    · subst hki
      rw [h.next, if_neg]
      rintro rfl
      exact hout [] ⟨[], rfl, rfl⟩
    · rw [h.frame hki]
  names := by
    intro k hk hout
    by_cases hki : k = i
    · subst hki
      rw [h.content]
      cases x with
      | literal text => exact congrArg Content.names (Content.append_empty (t.node k).content)
      | dynamic name => exact absurd ⟨[], rfl, rfl⟩ (hout [])
    · rw [h.frame hki]
  frame := by
    intro k hk hout
    apply h.frame
    rintro rfl
    exact hout [x.step] ⟨[], rfl, rfl⟩

/-- What is ahead of the rest of a pattern at an old node is ahead of the pattern too. -/
theorem Opens.ahead_cons (h : Opens t i [x] j t') (hk : k < t.size)
    (ha : Ahead t' j (Pattern.position p) k rest) : Ahead t i (Pattern.position (x :: p)) k rest := by
  obtain ⟨front, hfront, hlocate⟩ := ha
  refine ⟨x.step :: front, congrArg (x.step :: ·) hfront, ?_⟩
  have hway : t'.locate i (x.step :: front) = some k := by
    have happend := locate_append_of_some h.located front
    exact happend.trans hlocate
  exact h.locate_old hway hk

/-- What is ahead of the first segment of a pattern is ahead of the pattern, with more behind it. -/
theorem ahead_singleton (ha : Ahead t i (Pattern.position [x]) k (s :: rest)) :
    Ahead t i (Pattern.position (x :: p)) k (s :: Pattern.position p) := by
  obtain ⟨front, hfront, hlocate⟩ := ha
  cases front with
  | nil =>
      obtain ⟨rfl, -⟩ := List.cons.inj hfront
      exact ⟨[], rfl, hlocate⟩
  | cons s' front =>
      have hnil : front ++ s :: rest = [] := (List.cons.inj hfront).2
      exact absurd hnil (List.append_ne_nil_of_right_ne_nil front (List.cons_ne_nil s rest))

theorem Opens.cons (h : Opens t i [x] j t') (h' : Opens t' j p k t'') : Opens t i (x :: p) k t'' where
  toExtends := h.toExtends.trans h'.toExtends
  sound := h'.sound
  lt := h'.lt
  located := by
    have hfirst := h'.toExtends.locate h.located
    have happend := locate_append_of_some hfirst (Pattern.position p)
    exact happend.trans h'.located
  known := by
    obtain ⟨hname, -⟩ := h.known
    obtain ⟨c, hc, hend⟩ := Option.bind_eq_some_iff.mp h.located
    obtain rfl : c = j := Option.some.inj hend
    constructor
    · intro name hx
      obtain ⟨names, -, hcontent⟩ := h'.content i
      rw [hcontent]
      exact mem_addNames.mpr (Or.inl (hname name hx))
    · intro c' hc'
      obtain rfl := Option.some.inj ((h'.kept hc).symm.trans hc')
      exact h'.known
  content := by
    intro c
    obtain ⟨names, hnames, hcontent⟩ := h.content c
    obtain ⟨names', hnames', hcontent'⟩ := h'.content c
    refine ⟨addNames names names', ?_, ?_⟩
    · intro name hname
      have hcons : (x :: p).filterMap PatternSegment.name? =
          [x].filterMap PatternSegment.name? ++ p.filterMap PatternSegment.name? :=
        List.filterMap_append (l := [x])
      rw [hcons, List.mem_append]
      exact (mem_addNames.mp hname).imp (hnames name) (hnames' name)
    · rw [hcontent', hcontent, Content.append_assoc]
      rfl
  next := by
    intro c s hc hout
    rw [h'.next (Nat.lt_of_lt_of_le hc h.size) fun rest ha => hout rest (h.ahead_cons hc ha)]
    exact h.next hc fun rest ha => hout _ (ahead_singleton ha)
  names := by
    intro c hc hout
    rw [h'.names (Nat.lt_of_lt_of_le hc h.size) fun rest ha => hout rest (h.ahead_cons hc ha)]
    exact h.names hc fun rest ha => hout _ (ahead_singleton ha)
  frame := by
    intro c hc hout
    rw [h'.frame (Nat.lt_of_lt_of_le hc h.size) fun rest ha => hout rest (h.ahead_cons hc ha)]
    apply h.frame hc
    rintro rest ⟨front, hfront, hlocate⟩
    exact hout (rest ++ Pattern.position p) ⟨front, by rw [← List.append_assoc, hfront]; rfl, hlocate⟩

theorem opens_descend (ht : Sound t) (hi : i < t.size) (segments : List String) :
    Opens t i (segments.map .read) (t.descend i segments).1 (t.descend i segments).2 := by
  induction segments generalizing t i with
  | nil => exact opens_nil ht hi
  | cons s segments ih =>
      have hchild := (makesChild_child hi s).opens ht
      exact hchild.cons (ih hchild.sound hchild.lt)

theorem opens_nodeAt (ht : Sound t) (hi : i < t.size) (path : String) :
    Opens t i (.ofPath path) (t.nodeAt i path).1 (t.nodeAt i path).2 :=
  opens_descend ht hi (Path.segments path)

end WebResource.Trie
