import WebResource.Proofs.Context.Params
import WebResource.Proofs.Router.Following

namespace WebResource.Trie

/-!
# Names that are recorded

A pattern whose node is there already adds nothing to a trie but its names. Requests are dispatched as
before then, but for the parameters of these names; and all of them exactly as before only if the names
have been recorded before.
-/

variable {H M : Type} {t t' : Trie H M} {i j k : NodeId} {p : Pattern} {pos : Position}
  {left more names : List String} {N : List String} {name : String}

theorem prefix_addNames (names more : List String) : names <+: addNames names more := by
  induction more generalizing names with
  | nil => exact List.prefix_rfl
  | cons name more ih =>
      have hone : names <+: addNames names [name] := by
        by_cases hname : name ∈ names
        · rw [addNames_of_mem hname]
        · rw [addNames_singleton_of_notMem hname]
          exact List.prefix_append names [name]
      exact hone.trans (ih (addNames names [name]))

theorem length_lt_addNames (hmem : name ∈ addNames names more) (hnew : name ∉ names) :
    names.length < (addNames names more).length := by
  have hprefix := prefix_addNames names more
  apply Nat.lt_of_le_of_ne hprefix.length_le
  intro hlength
  rw [← hprefix.eq_of_length hlength] at hmem
  exact hnew hmem

theorem names_of_dynamic {n : Node H M} {d : DynamicChild} (hd : n.dynamic = some d) :
    n.content.names = d.names := by
  simp only [Node.content, hd, Option.map_some, Option.getD_some]

/-! ## Tries that differ in names -/

/-- A trie that differs from another one only in that its nodes record more names. -/
structure Renames (N : List String) (t t' : Trie H M) : Prop where
  alike : ∀ k, Alike (t'.node k) (t.node k)
  next : ∀ {k s}, k < t.size → (t'.node k).next s = (t.node k).next s
  names : ∀ k, ∃ more : List String, (∀ name ∈ more, name ∈ N) ∧
    (t'.node k).content.names = addNames (t.node k).content.names more

theorem Opens.renames (h : Opens t i p j t') (hj : t.locate i (Pattern.position p) = some j) :
    Renames (p.filterMap PatternSegment.name?) t t' where
  alike := h.alike
  next := by
    intro k s hk
    by_cases hahead : ∃ rest, Ahead t i (Pattern.position p) k (s :: rest)
    · obtain ⟨rest, front, hfront, hlocate⟩ := hahead
      rw [← hfront, locate_append_of_some hlocate] at hj
      obtain ⟨c, hc, -⟩ := Option.bind_eq_some_iff.mp hj
      rw [hc, h.kept hc]
    · exact h.next hk (not_exists.mp hahead)
  names := by
    intro k
    obtain ⟨names, hnames, hcontent⟩ := h.content k
    exact ⟨names, hnames, congrArg Content.names hcontent⟩

section Renames

variable (h : Renames N t t')

include h

theorem Renames.literal? (hk : k < t.size) (s : String) :
    (t'.node k).literal? s = (t.node k).literal? s :=
  h.next (s := .literal s) hk

theorem Renames.dynamic_none (hk : k < t.size) (hd : (t.node k).dynamic = none) :
    (t'.node k).dynamic = none := by
  have hnext := h.next (s := .dynamic) hk
  rw [Node.next, Node.next, hd] at hnext
  exact Option.map_eq_none_iff.mp hnext

theorem Renames.dynamic_some (hk : k < t.size) {d : DynamicChild} (hd : (t.node k).dynamic = some d) :
    ∃ more : List String, (∀ name ∈ more, name ∈ N) ∧
      (t'.node k).dynamic = some ⟨addNames d.names more, d.node⟩ := by
  have hnext := h.next (s := .dynamic) hk
  obtain ⟨more, hmore, hnames⟩ := h.names k
  rw [Node.next, Node.next, hd, Option.map_some] at hnext
  obtain ⟨d', hd', hnode⟩ := Option.map_eq_some_iff.mp hnext
  rw [names_of_dynamic hd, names_of_dynamic hd'] at hnames
  refine ⟨more, hmore, ?_⟩
  rw [hd', ← hnames, ← hnode]

theorem Renames.walks (ht : Sound t) (hi : i < t.size) (hwalks : t.Walks i pos left j) :
    t'.Walks i pos left j := by
  induction hwalks with
  | nil i => exact .nil i
  | @literal i j k s pos left hs hmore ih =>
      have hlt : j < t.size := ht.lt (s := .literal s) hs
      exact .literal ((h.literal? hi s).trans hs) (ih hlt)
  | @dynamic i k s pos left d hs hd hmore ih =>
      have hlt : d.node < t.size := ht.lt (next_of_dynamic hd)
      obtain ⟨more, -, hd'⟩ := h.dynamic_some hi hd
      exact .dynamic ((h.literal? hi s).trans hs) hd' (ih hlt)

end Renames

/-! ## Requests -/

/-- Routes that are the same but for the parameters of some names. -/
structure Route.SameBut (N : List String) (r r' : Route H M) : Prop where
  handler : r'.handler = r.handler
  routing : r'.routing = r.routing
  params : ∀ name, name ∉ N → r'.params.get name = r.params.get name
  middlewares : r'.middlewares = r.middlewares
  rewound : r'.rewound = r.rewound

structure Walk.SameBut (N : List String) (w w' : Walk H M) : Prop where
  node : w'.node = w.node
  passed : w'.passed = w.passed
  params : ∀ name, name ∉ N → w'.params.get name = w.params.get name
  middlewares : w'.middlewares = w.middlewares
  rewind : Option.Rel (Route.SameBut N) w.rewind w'.rewind

section Walks

variable (h : Renames N t t') {w w' : Walk H M} (hw : Walk.SameBut N w w')

include hw

theorem Walk.SameBut.settle (uri : String) (left : List String) (found : Option H) :
    Option.Rel (Route.SameBut N) (Trie.settle uri left w found) (Trie.settle uri left w' found) := by
  cases found with
  | none => exact hw.rewind
  | some handler =>
      refine .some ⟨rfl, ?_, hw.params, hw.middlewares, rfl⟩
      rw [hw.passed]

include h

theorem Renames.visit (uri : String) (left : List String) :
    Walk.SameBut N (t.visit uri left w) (t'.visit uri left w') := by
  obtain ⟨hnode, hpassed, hparams, hmiddlewares, hrewind⟩ := hw
  have halike := h.alike w.node
  simp only [Trie.visit, hnode, hpassed, hmiddlewares, halike.patterns, halike.middlewares]
  cases (t.node w.node).patterns.lookup (PathCursor.mk uri w.passed left).pathLeft with
  | none => exact ⟨rfl, rfl, hparams, rfl, hrewind⟩
  | some handler => exact ⟨rfl, rfl, hparams, rfl, .some ⟨rfl, rfl, hparams, rfl, rfl⟩⟩

theorem Renames.walk (ht : Sound t) (hlt : w.node < t.size) (method uri : String)
    (left : List String) :
    Option.Rel (Route.SameBut N) (t.walk method uri left w) (t'.walk method uri left w') := by
  induction left generalizing w w' with
  | nil =>
      have halike := h.alike w.node
      have hmethod : (t'.node w.node).method? method = (t.node w.node).method? method := by
        simp only [Node.method?, halike.methods]
      rw [Trie.walk, Trie.walk, node_visit, node_visit, hw.node, hmethod, halike.fallback]
      exact (h.visit hw uri []).settle uri [] _
  | cons s left ih =>
      have hv := h.visit hw uri (s :: left)
      rw [Trie.walk, Trie.walk, node_visit, node_visit, hw.node]
      generalize t.visit uri (s :: left) w = v at hv
      generalize t'.visit uri (s :: left) w' = v' at hv
      simp only [h.literal? hlt, (h.alike w.node).fallback]
      cases hl : (t.node w.node).literal? s with
      | some j =>
          have hj : j < t.size := ht.lt (s := .literal s) hl
          apply ih _ hj
          exact ⟨rfl, congrArg (· ++ [s]) hv.passed, hv.params, hv.middlewares, hv.rewind⟩
      | none =>
          cases hd : (t.node w.node).dynamic with
          | none =>
              rw [h.dynamic_none hlt hd]
              exact hv.settle uri (s :: left) _
          | some d =>
              obtain ⟨more, hmore, hd'⟩ := h.dynamic_some hlt hd
              have hj : d.node < t.size := ht.lt (next_of_dynamic hd)
              rw [hd']
              apply ih _ hj
              refine ⟨rfl, congrArg (· ++ [s]) hv.passed, ?_, hv.middlewares, hv.rewind⟩
              intro name hname
              have hmem : name ∈ addNames d.names more ↔ name ∈ d.names := by
                rw [mem_addNames]
                exact or_iff_left fun hin => hname (hmore name hin)
              simp only [PathParams.get_addAll, hmem, hv.params name hname]

end Walks

/-- Requests are dispatched as before but for the parameters of the names. -/
theorem Renames.dispatch (h : Renames N t t') (ht : Sound t) (hi : i < t.size) (method : String)
    (cursor : PathCursor) (params : PathParams) :
    Option.Rel (Route.SameBut N) (t.dispatch i method cursor params)
      (t'.dispatch i method cursor params) :=
  h.walk ⟨rfl, rfl, fun _ _ => rfl, rfl, .none⟩ ht hi method cursor.requestUri cursor.left

/-! ## Names that are new -/

section Recorded

variable (h : Renames N t t') (ht : Sound t)

include h ht

theorem Renames.recorded_le (hi : i < t.size) (pos : Position) :
    t.recorded i pos ≤ t'.recorded i pos := by
  induction pos generalizing i with
  | nil => exact Nat.le_refl _
  | cons step pos ih =>
      cases step with
      | literal s =>
          rw [recorded, recorded, h.literal? hi]
          cases hs : (t.node i).literal? s with
          | none => exact Nat.le_refl _
          | some j => exact ih (ht.lt (s := .literal s) hs)
      | dynamic =>
          rw [recorded, recorded]
          cases hd : (t.node i).dynamic with
          | none => exact Nat.zero_le _
          | some d =>
              obtain ⟨more, -, hd'⟩ := h.dynamic_some hi hd
              have hj : d.node < t.size := ht.lt (next_of_dynamic hd)
              rw [hd']
              exact Nat.add_le_add (prefix_addNames d.names more).length_le (ih hj)

theorem Renames.recorded_lt (hi : i < t.size) (hj : t.locate i (Pattern.position p) = some j)
    (hknown : ¬t.Known i p) (hknown' : t'.Known i p) :
    t.recorded i (Pattern.position p) < t'.recorded i (Pattern.position p) := by
  induction p generalizing i with
  | nil => exact absurd trivial hknown
  | cons x p ih =>
      obtain ⟨c, hc, hend⟩ := Option.bind_eq_some_iff.mp hj
      have hlt := ht.lt hc
      have hmore : (∀ name, x.name? = some name → name ∈ (t.node i).content.names) → ¬t.Known c p := by
        intro hname hc'
        refine hknown ⟨hname, fun c' hnext => ?_⟩
        rw [Option.some.inj (hnext.symm.trans hc)]
        exact hc'
      have hmore' : t'.Known c p := hknown'.2 c ((h.next hi).trans hc)
      cases x with
      | literal text =>
          have hs : (t.node i).literal? text = some c := hc
          have hs' := (h.literal? hi text).trans hs
          simp only [Pattern.position, List.map_cons, PatternSegment.step, recorded, hs, hs',
            Option.elim_some]
          refine ih hlt hend (hmore ?_) hmore'
          intro name hname
          cases hname
      | dynamic name =>
          obtain ⟨d, hd, rfl⟩ := Option.map_eq_some_iff.mp hc
          obtain ⟨more, -, hd'⟩ := h.dynamic_some hi hd
          have hin := hknown'.1 name rfl
          rw [names_of_dynamic hd'] at hin
          simp only [Pattern.position, List.map_cons, PatternSegment.step, recorded, hd, hd',
            Option.elim_some]
          -- The name is new here, or the new one is further down.
          by_cases hold : name ∈ d.names
          · refine Nat.add_lt_add_of_le_of_lt (prefix_addNames d.names more).length_le ?_
            refine ih hlt hend (hmore ?_) hmore'
            rintro _ ⟨⟩
            rwa [names_of_dynamic hd]
          · exact Nat.add_lt_add_of_lt_of_le (length_lt_addNames hin hold) (h.recorded_le ht hlt _)

end Recorded

/-- A pattern whose node is there and whose names are known changes nothing. -/
theorem descend_of_known {segments : List String} (hknown : t.Known i (segments.map .read))
    (hj : t.locate i (Pattern.position (segments.map .read)) = some j) :
    t.descend i segments = (j, t) := by
  induction segments generalizing i with
  | nil =>
      obtain rfl := Option.some.inj hj
      rfl
  | cons s segments ih =>
      obtain ⟨c, hc, hj⟩ := Option.bind_eq_some_iff.mp hj
      have hchild : t.child i s = (c, t) := by
        by_cases hs : ∃ name, s.toList = ':' :: name
        · obtain ⟨name, hname⟩ := hs
          rw [PatternSegment.read_of_colon hname] at hc
          obtain ⟨d, hd, rfl⟩ := Option.map_eq_some_iff.mp hc
          have hmem := hknown.1 (String.ofList name) (by rw [PatternSegment.read_of_colon hname]; rfl)
          rw [names_of_dynamic hd] at hmem
          have hsame : { t.node i with
              dynamic := some { d with names := addNames d.names [String.ofList name] } } =
                t.node i := by
            rw [addNames_of_mem hmem, ← hd]
          rw [child_of_colon hname]
          simp only [dynamicChild, hd]
          rw [hsame, setNode_node]
        · have hplain : ∀ name, s.toList ≠ ':' :: name := not_exists.mp hs
          rw [PatternSegment.read_of_plain hplain] at hc
          have hfound : (t.node i).literal? s = some c := hc
          rw [child_of_plain hplain]
          simp only [literalChild, hfound]
      rw [descend, hchild]
      exact ih (hknown.2 c hc) hj

end WebResource.Trie
