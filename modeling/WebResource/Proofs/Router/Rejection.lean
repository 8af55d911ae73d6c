import WebResource.Proofs.Router.Assembly
import WebResource.Proofs.Router.Renaming

namespace WebResource

/-!
# Registrations that are rejected

A registration that panics leaves what it has done before. For a handler that is not a router these are
the names of its pattern. A router may be merged in part: no node loses anything, but those below the
two routers may have got more.
-/

namespace Trie

variable {H M : Type} {t t' u : Trie H M} {i j k source : NodeId} {p : Pattern} {n m s : Node H M}

/-! ## What nodes keep -/

/-- Content that begins as another one does. -/
structure Content.Le (c d : Content H M) : Prop where
  names : c.names <+: d.names
  methods : c.methods <+: d.methods
  fallback : ∀ {h}, c.fallback = some h → d.fallback = some h
  patterns : c.patterns <+: d.patterns
  middlewares : c.middlewares <+: d.middlewares

theorem Content.Le.rfl {c : Content H M} : c.Le c :=
  ⟨List.prefix_rfl, List.prefix_rfl, id, List.prefix_rfl, List.prefix_rfl⟩

theorem Content.Le.trans {c d e : Content H M} (h : c.Le d) (h' : d.Le e) : c.Le e where
  names := h.names.trans h'.names
  methods := h.methods.trans h'.methods
  fallback hc := h'.fallback (h.fallback hc)
  patterns := h.patterns.trans h'.patterns
  middlewares := h.middlewares.trans h'.middlewares

theorem Content.le_append (c d : Content H M) : c.Le (c.append d) where
  names := prefix_addNames c.names d.names
  methods := List.prefix_append _ _
  fallback hc := by rw [Content.append, hc, Option.some_or]
  patterns := List.prefix_append _ _
  middlewares := List.prefix_append _ _

/-- A node that has all that another one has. -/
structure Retains (n m : Node H M) : Prop where
  next : ∀ {step c}, n.next step = some c → m.next step = some c
  content : n.content.Le m.content

theorem Retains.rfl : Retains n n := ⟨id, Content.Le.rfl⟩

theorem Retains.trans (h : Retains n m) (h' : Retains m s) : Retains n s :=
  ⟨fun hc => h'.next (h.next hc), h.content.trans h'.content⟩

theorem prefix_addAll (m : PatternTable H) (es : List (String × H)) :
    m.entries <+: (m.addAll es).2.entries := by
  induction es generalizing m with
  | nil => exact List.prefix_rfl
  | cons e es ih =>
      rw [PatternTable.addAll, PatternTable.insert]
      split
      · next hinsert => exact List.prefix_rfl
      · next m' hinsert =>
          split at hinsert
          · cases hinsert
          · cases hinsert
            exact (List.prefix_append _ _).trans (ih _)

theorem le_mergeMethods (n : Node H M) (ms : List (String × H)) :
    n.content.Le (mergeMethods n ms).2.content := by
  induction ms generalizing n with
  | nil => exact Content.Le.rfl
  | cons m ms ih =>
      rw [mergeMethods]
      split
      · exact Content.Le.rfl
      · refine Content.Le.trans ?_ (ih _)
        exact ⟨List.prefix_rfl, List.prefix_append _ _, id, List.prefix_rfl, List.prefix_rfl⟩

theorem le_mergeFallback (n : Node H M) (h : Option H) :
    n.content.Le (mergeFallback n h).2.content := by
  cases h with
  | none => exact Content.Le.rfl
  | some h =>
      rw [mergeFallback]
      split
      · exact Content.Le.rfl
      · next hnone =>
          refine ⟨List.prefix_rfl, List.prefix_rfl, ?_, List.prefix_rfl, List.prefix_rfl⟩
          intro h' hh'
          have hfallback : n.fallback = some h' := hh'
          rw [hfallback] at hnone
          exact absurd rfl hnone

/-- What a node holds stays when another one's content is merged, also if the merge stops. -/
theorem le_mergeContent (n s : Node H M) : n.content.Le (mergeContent n s).2.content := by
  have hpatterns : n.content.Le { n with patterns := (n.patterns.merge s.patterns).2 }.content :=
    ⟨List.prefix_rfl, List.prefix_rfl, id, prefix_addAll n.patterns s.patterns.entries, List.prefix_rfl⟩
  rw [mergeContent]
  generalize n.patterns.merge s.patterns = r at hpatterns
  obtain ⟨_ | e, patterns⟩ := r
  · have hmethods := hpatterns.trans (le_mergeMethods { n with patterns } s.methods)
    simp only
    generalize mergeMethods { n with patterns } s.methods = r at hmethods
    obtain ⟨_ | e, n'⟩ := r
    · have hfallback := hmethods.trans (le_mergeFallback n' s.fallback)
      simp only
      generalize mergeFallback n' s.fallback = r at hfallback
      obtain ⟨_ | e, n''⟩ := r
      · refine hfallback.trans ?_
        exact ⟨List.prefix_rfl, List.prefix_rfl, id, List.prefix_rfl, List.prefix_append _ _⟩
      · exact hfallback
    · exact hmethods
  · exact hpatterns

theorem le_mergeChildren (hkeys : (s.literals.map Prod.fst).Nodup) :
    n.content.Le (mergeChildren n s).content := by
  rw [mergeChildren_eq n hkeys]
  refine ⟨?_, List.prefix_rfl, id, List.prefix_rfl, List.prefix_rfl⟩
  cases hn : n.dynamic with
  | none =>
      simp only [Node.content, hn]
      exact List.nil_prefix
  | some d =>
      cases hs : s.dynamic with
      | none =>
          simp only [Node.content, mergeDynamic, hn]
          exact List.prefix_rfl
      | some e =>
          simp only [Node.content, mergeDynamic, hn]
          exact prefix_addNames d.names e.names

theorem retains_combine (hkeys : (s.literals.map Prod.fst).Nodup) : Retains n (combine n s) where
  next hc := by rw [next_combine hkeys, hc, Option.some_or]
  content := (le_mergeChildren hkeys).trans (le_mergeContent _ s)

theorem Opens.retains (h : Opens t i p j t') (k : NodeId) : Retains (t.node k) (t'.node k) where
  next hc := h.kept hc
  content := by
    obtain ⟨names, -, hcontent⟩ := h.content k
    rw [hcontent]
    exact Content.le_append _ _

/-- No node loses anything in a merge, whether it is done or stops. -/
theorem retains_merges {x : Pending H M} {result : Merged × Trie H M} (h : Pending.Merges x result)
    (hkeys : ∀ k, ((x.trie.node k).literals.map Prod.fst).Nodup) (k : NodeId) :
    Retains (x.trie.node k) (result.2.node k) := by
  have hmerged : (∀ k, ((result.2.node k).literals.map Prod.fst).Nodup) ∧
      ∀ k, Retains (x.trie.node k) (result.2.node k) := by
    apply h.preserves (P := fun _ => True) (J := fun t' : Trie H M =>
      (∀ k, ((t'.node k).literals.map Prod.fst).Nodup) ∧ ∀ k, Retains (x.trie.node k) (t'.node k))
    · exact fun h => h.1
    · exact fun _ _ _ _ _ _ => trivial
    · intro t' h a b s _ _ hsource
      have hnode := node_setNode_cases t' a (combine (t'.node a) s)
      have hkeys := hsource.keys (h.1 b)
      constructor
      · intro k
        rcases hnode k with hk | ⟨-, hk⟩
        · rw [hk]
          exact h.1 k
        · rw [hk]
          exact keys_combine hkeys (h.1 a)
      · intro k
        rcases hnode k with hk | ⟨rfl, hk⟩
        · rw [hk]
          exact h.2 k
        · rw [hk]
          exact (h.2 k).trans (retains_combine hkeys)
    · exact ⟨hkeys, fun k => Retains.rfl⟩
    · exact fun _ _ => ⟨trivial, trivial⟩
  exact hmerged.2 k

/-! ## A merge into the node of a pattern -/

/-- The nodes of a pattern and below it, and those of another router. -/
def Below (t : Trie H M) (i : NodeId) (p : Pattern) (source k : NodeId) : Prop :=
  ∃ pos, t.locate i (Pattern.position p ++ pos) = some k ∨ t.locate source pos = some k

theorem Opens.below (h : Opens t i p j u) (hk : k < t.size) (hunder : u.Under j source k) :
    t.Below i p source k := by
  obtain ⟨pos, hpos | hpos⟩ := hunder
  · exact ⟨pos, Or.inl (h.locate_old ((locate_append_of_some h.located pos).trans hpos) hk)⟩
  · exact ⟨pos, Or.inr (h.locate_old hpos hk)⟩

/-- A merge into the node of a pattern changes what is on the way of the pattern and what is below the
two nodes. -/
theorem Opens.alters_merges (h : Opens t i p j u) (hsource : source < t.size)
    {result : Merged × Trie H M} (hmerges : Pending.Merges ⟨u, [(j, source)]⟩ result) :
    Alters t result.2 fun k rest =>
      Ahead t i (Pattern.position p) k rest ∨ t.Below i p source k := by
  have hwithin := within_merges_under h.sound h.lt (Nat.lt_of_lt_of_le hsource h.size) hmerges
  -- Elsewhere a node is as the view of the pattern has it.
  have hframe {k : NodeId} (hk : k < t.size) (hout : ¬t.Below i p source k) :
      result.2.node k = u.node k := hwithin.frame fun hunder => hout (h.below hk hunder)
  constructor
  · intro k rest hk hout
    rw [hframe hk (not_or.mp hout).2, (h.alike k).patterns]
  · intro k rest hk hout
    rw [hframe hk (not_or.mp hout).2, (h.alike k).fallback]
  · intro k rest hk hout
    rw [hframe hk (not_or.mp hout).2, (h.alike k).middlewares]
  · intro k hk hout
    rw [hframe hk (not_or.mp hout).2, (h.alike k).methods]
  · intro k text hk hout
    rw [hframe hk (not_or.mp (hout [])).2]
    exact h.next hk fun rest => (not_or.mp (hout rest)).1
  · intro k hk hout
    have hahead (rest : Position) := (not_or.mp (hout rest)).1
    rw [hframe hk (not_or.mp (hout [])).2]
    exact dynamic_eq (h.next hk hahead) (h.names hk hahead)

end Trie

namespace Router

open Trie Assembly

variable {S : Type} {t t' : Routes S} {i j : NodeId} {p : Pattern} {a : Action S} {e : RouteTaken}
  {w : Assembly S} {r s : Ref} {path : String}

/-- A call that panics has clashed, and leaves the node of its path. -/
theorem clashes_of_performs {result : Registered S} {view : NodeId × Routes S}
    (h : Performs a view result) (hclash : result = (.clash e, t')) :
    (view.2.node view.1).content.Clashes a.item.content ∧ t' = view.2 := by
  by_cases hclashes : (view.2.node view.1).content.Clashes a.item.content
  · obtain ⟨e', he'⟩ := h.clash hclashes
    exact ⟨hclashes, congrArg Prod.snd (hclash.symm.trans he')⟩
  · obtain ⟨n, hn, -⟩ := h.done hclashes
    cases hclash.symm.trans hn

/-- Where something clashes, something has been registered. -/
theorem lt_of_clashes (hopens : Opens t i p j t') {c : Content (Handler S) (Middleware S)}
    (hclash : (t'.node j).content.Clashes c) : j < t.size := by
  by_contra hj
  have halike := hopens.alike j
  rw [node_of_le (Nat.le_of_not_lt hj)] at halike
  rcases hclash with ⟨m, -, hm⟩ | ⟨hfallback, -⟩ | ⟨m, -, hm⟩
  · have hnone : (t'.node j).content.methods = [] := halike.methods
    rw [hnone] at hm
    cases hm
  · have hnone : (t'.node j).content.fallback = none := halike.fallback
    rw [hnone] at hfallback
    cases hfallback
  · have hnone : (t'.node j).content.patterns = [] := congrArg PatternTable.entries halike.patterns
    rw [hnone] at hm
    cases hm

/-- Where a call clashes that has a path, there is a handler for some request. -/
theorem found_of_clashes {n : Node (Handler S) (Middleware S)}
    (hclash : n.content.Clashes a.item.content) :
    a.path = "" ∨ ∃ method handler, (n.method? method <|> n.fallback) = some handler := by
  cases a with
  | on method path h =>
      right
      rcases hclash with ⟨m, hm, hmem⟩ | ⟨-, hfallback⟩ | ⟨m, hm, -⟩
      · obtain rfl := List.mem_singleton.mp hm
        obtain ⟨handler, hhandler⟩ := Option.isSome_iff_exists.mp (isSome_method?.mpr hmem)
        refine ⟨method, handler, ?_⟩
        rw [hhandler]
        rfl
      · cases hfallback
      · cases hm
  | mount path h =>
      right
      rcases hclash with ⟨m, hm, -⟩ | ⟨hfallback, -⟩ | ⟨m, hm, -⟩
      · cases hm
      · obtain ⟨handler, hhandler⟩ := Option.isSome_iff_exists.mp hfallback
        have hsome : n.fallback = some handler := hhandler
        cases hmethod : n.method? "" with
        | none => exact ⟨"", handler, by rw [hmethod, hsome]; rfl⟩
        | some h' => exact ⟨"", h', by rw [hmethod]; rfl⟩
      · cases hm
  | handle pattern h => exact Or.inl rfl
  | use ms => exact Or.inl rfl
  | sub path => exact absurd hclash (Content.not_clashes_empty _)

/-- If the names of a pattern are new, a request to its node sees them. -/
theorem not_stays_of_unknown (hopens : Opens t i p j t') (ht : Sound t) (hi : i < t.size)
    (hj : t.locate i (Pattern.position p) = some j) {method : String} {handler : Handler S}
    (hfound : ((t'.node j).method? method <|> (t'.node j).fallback) = some handler)
    (hknown : ¬t.Known i p) : ¬Stays t t' i fun _ => True := by
  intro hstays
  -- A request that goes the way of the pattern records more names than before.
  have hrenames := hopens.renames hj
  have halike := hopens.alike j
  obtain ⟨left, -, hwalks⟩ := exists_walks [] hj
  obtain ⟨route', hroute', -, hlength'⟩ :=
    (hrenames.walks ht hi hwalks).exists_dispatch hfound "" [] .empty
  rw [Node.method?, halike.methods, halike.fallback] at hfound
  obtain ⟨route, hroute, -, hlength⟩ := hwalks.exists_dispatch hfound "" [] .empty
  rw [hstays method ⟨"", [], left⟩ .empty trivial, hroute] at hroute'
  obtain rfl := Option.some.inj hroute'
  have hlt := hrenames.recorded_lt ht hi hj hknown hopens.known
  rw [hlength] at hlength'
  exact Nat.ne_of_lt hlt (Nat.add_right_cancel hlength')

/-- What is left of a pattern whose handler is rejected: its names. -/
structure LeavesNames (w : Assembly S) (r : Ref) (p : Pattern) (t' : Routes S) : Prop where
  /-- Requests are dispatched as before but for the parameters of the names. -/
  dispatch : ∀ s ∈ w.refs, ∀ method cursor params,
    Option.Rel (Route.SameBut (p.filterMap PatternSegment.name?))
      (w.routes.dispatch s.node method cursor params) (t'.dispatch s.node method cursor params)
  /-- They all are exactly as before if, and only if, the names have been known. -/
  stays_iff : (∀ s ∈ w.refs, Stays w.routes t' s.node fun _ => True) ↔ w.routes.Known r.node p

/-- What stays as a router is merged at a path of another one. -/
structure KeepsRest (w : Assembly S) (r : Ref) (path : String) (s : Ref) (t' : Routes S) : Prop where
  /-- No node has lost anything. -/
  retains : ∀ k, Retains (w.routes.node k) (t'.node k)
  /-- Requests stay that come to none of the nodes that are merged, and to no new name. -/
  stays : ∀ q ∈ w.refs, Stays w.routes t' q.node fun left => ∀ pos rest k,
    w.routes.locate q.node pos = some k →
      Ahead w.routes r.node (Pattern.position (.ofPath path)) k rest ∨
        w.routes.Below r.node (.ofPath path) s.node k → ¬Meets pos rest left
  /-- Those are all requests of the routers that have been joined with neither. -/
  apart : ∀ q ∈ w.refs, ¬Linked w.joins q.origin r.origin → ¬Linked w.joins q.origin s.origin →
    Stays w.routes t' q.node fun _ => True

/-- What is left of a router that is rejected at a path of another one: what has been merged before the
clash. -/
structure LeavesPart (w : Assembly S) (r : Ref) (path : String) (s : Ref) (e : RouteTaken)
    (t' : Routes S) : Prop extends KeepsRest w r path s t' where
  combines : Combines (w.routes.nodeAt r.node path).2 (.clash e) t'

theorem leavesNames_run (hw : Reachable w) (hr : r ∈ w.refs) (ha : a.IsPlain)
    (hclash : a.run w.routes r.node = (.clash e, t')) : LeavesNames w r (.ofPath a.path) t' := by
  obtain ⟨owner, howned⟩ := hw.owned
  have hi := (howned.placed hr).lt
  have hopens := opens_nodeAt howned.sound hi a.path
  obtain ⟨hclashes, rfl⟩ := clashes_of_performs (performs_run w.routes r.node ha) hclash
  have hj := hopens.locate_old hopens.located (lt_of_clashes hopens hclashes)
  constructor
  · intro s hs
    exact (hopens.renames hj).dispatch howned.sound (howned.placed hs).lt
  · constructor
    · intro hstays
      rcases found_of_clashes hclashes with hpath | ⟨method, handler, hfound⟩
      · rw [hpath, Pattern.ofPath, segments_empty]
        trivial
      · by_contra hknown
        exact not_stays_of_unknown hopens howned.sound hi hj hfound hknown (hstays r hr)
    · intro hknown s _ method cursor params _
      rw [nodeAt, descend_of_known hknown hj]

/-- A merge keeps the rest whatever the order in which it goes through the nodes, whether it is done or
stops at a clash. -/
theorem keepsRest_of_merges (hw : Reachable w) (hr : r ∈ w.refs) (hs : s ∈ w.refs)
    {result : Merged × Routes S} (hmerges : Pending.Merges (mounting w r path s) result) :
    KeepsRest w r path s result.2 := by
  obtain ⟨owner, howned⟩ := hw.owned
  have hopens := opens_nodeAt howned.sound (howned.placed hr).lt path
  have halters := hopens.alters_merges (howned.placed hs).lt hmerges
  constructor
  · intro k
    exact (hopens.retains k).trans (retains_merges hmerges hopens.sound.keys k)
  · intro q hq method cursor params hleft
    exact halters.dispatch_eq howned.sound (howned.placed hq).lt
      (fun pos k rest => hleft pos rest k) method params
  · intro q hq hunlinked hunlinked' method cursor params _
    apply halters.dispatch_eq howned.sound (howned.placed hq).lt
    intro pos k rest hk hahead
    have hown := (howned.linked_below hq hk).symm _ _
    exfalso
    rcases hahead with ⟨front, -, hlocate⟩ | ⟨way, hlocate | hlocate⟩
    · exact hunlinked (hown.trans _ _ _ (howned.linked_below hr hlocate))
    · exact hunlinked (hown.trans _ _ _ (howned.linked_below hr hlocate))
    · exact hunlinked' (hown.trans _ _ _ (howned.linked_below hs hlocate))

theorem leavesPart_mount (hw : Reachable w) (hr : r ∈ w.refs) (hs : s ∈ w.refs)
    (hclash : Router.mount w.routes r.node path (.ofRouter s.node) = (.clash e, t')) :
    LeavesPart w r path s e t' := by
  have hmerges : Pending.Merges (mounting w r path s) (.clash e, t') := by
    rw [← hclash]
    apply merges_mount
    rw [hclash]
    exact Merged.noConfusion
  have hcombines := combines_mergeDepth (w.routes.nodeAt r.node path).2.mergeLimit
    (w.routes.nodeAt r.node path).2 (w.routes.nodeAt r.node path).1 s.node
  have hmerge : (w.routes.nodeAt r.node path).2.merge (w.routes.nodeAt r.node path).1 s.node =
      (.clash e, t') := hclash
  rw [← merge, hmerge] at hcombines
  exact ⟨keepsRest_of_merges hw hr hs hmerges, hcombines⟩

/-- A rejected call leaves the names of its pattern, and a router that is rejected leaves what has been
merged of it. In another order, something else of it may be left, and the rest is kept as well. -/
theorem rejected_call (hw : Reachable w) (hr : r ∈ w.refs) :
    (∀ a e t', Action.IsPlain a → a.run w.routes r.node = (.clash e, t') →
      LeavesNames w r (.ofPath a.path) t') ∧
    (∀ s ∈ w.refs, ∀ path e t', Router.mount w.routes r.node path (.ofRouter s.node) = (.clash e, t') ∨
        Router.handle w.routes r.node path (.ofRouter s.node) = (.clash e, t') →
      LeavesPart w r path s e t') ∧
    ∀ s ∈ w.refs, ∀ path e t', Pending.Merges (mounting w r path s) (.clash e, t') →
      KeepsRest w r path s t' := by
  refine ⟨?_, ?_, ?_⟩
  · intro a e t' ha hclash
    exact leavesNames_run hw hr ha hclash
  · rintro s hs path e t' (hclash | hclash)
    · exact leavesPart_mount hw hr hs hclash
    · exact leavesPart_mount hw hr hs hclash
  · intro s hs path e t' hmerges
    exact keepsRest_of_merges hw hr hs hmerges

/-! A router with a route for `/items/:id`, for which one for `/items/:item_id` is rejected: requests
for the first one then get both parameters. And a router with a route for `/a`, below which one with
routes for `/` and `/b` is mounted in vain: the second one is served then, below `/a`. -/

def itemHandler : Handler Unit := .ofService fun _ => .done (.plain 200)

def itemRouter : Assembly Unit := Assembly.empty.new.call ⟨0, 0⟩ (.on "GET" "/items/:id" itemHandler)

def itemPages : Assembly Unit :=
  (((Assembly.empty.new.new.call ⟨0, 0⟩ (.on "GET" "/a" itemHandler)).call ⟨1, 1⟩
    (.on "GET" "/" itemHandler)).call ⟨1, 1⟩ (.on "GET" "/b" itemHandler))

theorem rejected_call_items :
    (Reachable itemRouter ∧ ⟨0, 0⟩ ∈ itemRouter.refs ∧
      ∃ e t', Router.on itemRouter.routes 0 "GET" "/items/:item_id" itemHandler = (.clash e, t') ∧
        ¬∀ s ∈ itemRouter.refs, Stays itemRouter.routes t' s.node fun _ => True) ∧
    Reachable itemPages ∧ ⟨0, 0⟩ ∈ itemPages.refs ∧ ⟨1, 1⟩ ∈ itemPages.refs ∧
      ∃ e t', Router.mount itemPages.routes 0 "/a" (.ofRouter 1) = (.clash e, t') ∧
        LeavesPart itemPages ⟨0, 0⟩ "/a" ⟨1, 1⟩ e t' ∧
        itemPages.routes.dispatch 0 "GET" ⟨"/a/b", [], ["a", "b"]⟩ .empty = none ∧
        (t'.dispatch 0 "GET" ⟨"/a/b", [], ["a", "b"]⟩ .empty).isSome := by
  refine ⟨?_, ?_⟩
  · have hreachable : Reachable itemRouter := .call (.new .empty) (by decide) trivial
    have hmem : ⟨0, 0⟩ ∈ itemRouter.refs := by decide
    obtain ⟨e, t', hclash⟩ : ∃ e t', Router.on itemRouter.routes 0 "GET" "/items/:item_id" itemHandler =
        (.clash e, t') := ⟨_, _, rfl⟩
    refine ⟨hreachable, hmem, e, t', hclash, ?_⟩
    intro hstays
    have hleaves := (rejected_call hreachable hmem).1
      (.on "GET" "/items/:item_id" itemHandler) e t' trivial hclash
    obtain ⟨-, hitems⟩ := hleaves.stays_iff.mp hstays
    obtain ⟨hname, -⟩ := hitems 1 rfl
    exact absurd (hname "item_id" rfl) (by decide)
  · have hreachable : Reachable itemPages := by
      refine .call (.call (.call (.new (.new .empty)) ?_ trivial) ?_ trivial) ?_ trivial
      · decide
      · decide
      · decide
    have hmem : ⟨0, 0⟩ ∈ itemPages.refs := by decide
    have hmem' : ⟨1, 1⟩ ∈ itemPages.refs := by decide
    have hmerge := merge_of_common_nil (t := (itemPages.routes.nodeAt 0 "/a").2) (i := 2) (j := 1)
      (by decide) (by decide) (by rfl)
    obtain ⟨e, t', ht', hclash⟩ : ∃ e t', t' = _ ∧
        Router.mount itemPages.routes 0 "/a" (.ofRouter 1) = (.clash e, t') := ⟨_, _, rfl, hmerge⟩
    have hleaves := (rejected_call hreachable hmem).2.1 ⟨1, 1⟩ hmem' "/a" e t' (Or.inl hclash)
    refine ⟨hreachable, hmem, hmem', e, t', hclash, hleaves, rfl, ?_⟩
    rw [ht']
    rfl

end Router

end WebResource
