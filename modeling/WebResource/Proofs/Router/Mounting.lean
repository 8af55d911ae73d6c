import WebResource.Proofs.Router.Merging
import WebResource.Proofs.Router.Registering

namespace WebResource

/-!
# Mounting a router

A router that is mounted below a path answers as if its calls had been made on a view of the path.
Both ways lead to the same plan, and routers with the same plan answer alike.
-/

namespace Trie

variable {H M : Type} {t t' : Trie H M} {root root' i j k : NodeId} {pos : Position}
  {plan inner : Plan H M} {p : Pattern}

/-! ## Routers with the same plan -/

theorem visit_congr {w : Walk H M} (h : (t.node w.node).content = (t'.node i).content) (uri : String)
    (left : List String) :
    t'.visit uri left { w with node := i } = { t.visit uri left w with node := i } := by
  have hpatterns : (t.node w.node).patterns = (t'.node i).patterns :=
    congrArg PatternTable.mk (congrArg Content.patterns h)
  have hmiddlewares : (t.node w.node).middlewares = (t'.node i).middlewares :=
    congrArg Content.middlewares h
  simp only [visit, ← hpatterns, ← hmiddlewares]
  cases (t.node w.node).patterns.lookup (PathCursor.mk uri w.passed left).pathLeft <;> rfl

theorem node_visit (uri : String) (left : List String) (w : Walk H M) :
    (t.visit uri left w).node = w.node := by
  simp only [visit]
  split <;> rfl

/-- The same step leads to a child in both of two routers with the same plan, or in neither. -/
theorem Shows.next_cases (h : Shows t root plan) (h' : Shows t' root' plan)
    (hi : t.locate root pos = some i) (hj : t'.locate root' pos = some j) (s : Step) :
    ((t.node i).next s = none ∧ (t'.node j).next s = none) ∨
      ∃ k k', (t.node i).next s = some k ∧ (t'.node j).next s = some k' ∧
        t.locate root (pos ++ [s]) = some k ∧ t'.locate root' (pos ++ [s]) = some k' := by
  have hsome : ((t'.node j).next s).isSome = ((t.node i).next s).isSome := by
    rw [h.isSome_next hi, h'.isSome_next hj]
  cases hk : (t.node i).next s with
  | none =>
      rw [hk] at hsome
      exact Or.inl ⟨rfl, Option.isNone_iff_eq_none.mp (Option.isSome_eq_false_iff.mp hsome)⟩
  | some k =>
      rw [hk] at hsome
      obtain ⟨k', hk'⟩ := Option.isSome_iff_exists.mp hsome
      refine Or.inr ⟨k, k', rfl, hk', ?_, ?_⟩
      · rw [locate_concat, hi, Option.bind_some, hk]
      · rw [locate_concat, hj, Option.bind_some, hk']

/-- Walks through routers with the same plan take the same steps and find the same. -/
theorem Shows.walk_congr (h : Shows t root plan) (h' : Shows t' root' plan) (method uri : String)
    (left : List String) {w : Walk H M} (hw : t.locate root pos = some w.node)
    (hi : t'.locate root' pos = some i) :
    t'.walk method uri left { w with node := i } = t.walk method uri left w := by
  induction left generalizing pos w i with
  | nil =>
      have hcontent : (t.node w.node).content = (t'.node i).content :=
        (h.content hw).trans (h'.content hi).symm
      have hmethods : (t'.node i).method? method = (t.node w.node).method? method := by
        simp only [Node.method?]
        exact congrArg (fun c : Content H M => (c.methods.find? (·.1 == method)).map (·.2)) hcontent.symm
      have hfallback : (t'.node i).fallback = (t.node w.node).fallback :=
        congrArg Content.fallback hcontent.symm
      rw [walk, walk, visit_congr hcontent, node_visit]
      simp only [hmethods, hfallback]
      rfl
  | cons s left ih =>
      have hcontent : (t.node w.node).content = (t'.node i).content :=
        (h.content hw).trans (h'.content hi).symm
      have hfallback : (t'.node i).fallback = (t.node w.node).fallback :=
        congrArg Content.fallback hcontent.symm
      rw [walk, walk, visit_congr hcontent, node_visit]
      generalize t.visit uri (s :: left) w = v
      rcases h.next_cases h' hw hi (.literal s) with ⟨hnone, hnone'⟩ | ⟨k, k', hk, hk', hloc, hloc'⟩
      · rw [Node.next] at hnone hnone'
        rcases h.next_cases h' hw hi .dynamic with ⟨hleaf, hleaf'⟩ | ⟨k, k', hk, hk', hloc, hloc'⟩
        · rw [Node.next, Option.map_eq_none_iff] at hleaf hleaf'
          simp only [hnone, hnone', hleaf, hleaf', hfallback]
          rfl
        · obtain ⟨d, hd, rfl⟩ := Option.map_eq_some_iff.mp hk
          obtain ⟨d', hd', rfl⟩ := Option.map_eq_some_iff.mp hk'
          have hnames : d'.names = d.names := by
            have hnames := congrArg Content.names hcontent
            simp only [Node.content, hd, hd'] at hnames
            exact hnames.symm
          simp only [hnone, hnone', hd, hd', hnames]
          exact ih (w := { v with
            node := d.node, passed := v.passed ++ [s],
            params := v.params.addAll d.names (Percent.decodeSegment s) }) hloc hloc'
      · rw [Node.next] at hk hk'
        simp only [hk, hk']
        exact ih (w := { v with node := k, passed := v.passed ++ [s] }) hloc hloc'

theorem Shows.dispatch_eq (h : Shows t root plan) (h' : Shows t' root' plan) (method : String)
    (cursor : PathCursor) (params : PathParams) :
    t.dispatch root method cursor params = t'.dispatch root' method cursor params := by
  have hroot : t.locate root [] = some root := rfl
  have hroot' : t'.locate root' [] = some root' := rfl
  exact (h.walk_congr h' method cursor.requestUri cursor.left
    (w := ⟨root, cursor.passed, params, [], none⟩) hroot hroot').symm

/-! ## The plan of a merge -/

theorem Shows.keeps (h : Shows t root plan) (hkeeps : Keeps t t' root) : Shows t' root plan where
  located pos := by rw [hkeeps.locate, h.located]
  content hi := by
    rw [hkeeps.locate] at hi
    rw [hkeeps _ _ hi, h.content hi]

theorem Draws.keeps (h : Draws t root plan) (hkeeps : Keeps t t' root) (hsize : t.size ≤ t'.size) :
    Draws t' root plan := ⟨h.toIsTree.keeps hkeeps hsize, h.toShows.keeps hkeeps⟩

theorem Apart.symm (h : Apart t i j) : Apart t j i := fun p q k hp hq => h q p k hq hp

theorem Grows.keeps (h : Grows t t' root) (hi : IsTree t i) (hapart : Apart t i root) :
    Keeps t t' i :=
  fun pos k hk => h.frame (hi.lt hk) fun q => hapart pos q k hk

theorem Grows.apart (h : Grows t t' root) (hi : IsTree t i) (hapart : Apart t i root) :
    Apart t' i root := by
  intro p q k hp hq
  rw [(h.keeps hi hapart).locate] at hp
  rcases h.fresh hq with hq | hle
  · exact hapart p q k hp hq
  · exact absurd (hi.lt hp) (Nat.not_lt_of_le hle)

section Joined

variable (hjoined : Joined t t' [(i, j)]) (hi : IsTree t i) (hj : IsTree t j) (hapart : Apart t i j)

include hjoined

theorem Joined.node_combine {a b : NodeId} (ha : t.locate i pos = some a)
    (hb : t.locate j pos = some b) : t'.node a = combine (t.node a) (t.node b) :=
  hjoined.merged (List.mem_singleton_self (i, j)) ha hb

theorem Joined.node_eq (h : ∀ pos b, t.locate i pos = some k → t.locate j pos ≠ some b) :
    t'.node k = t.node k := by
  apply hjoined.frame
  intro p hp
  rw [List.mem_singleton.mp hp]
  exact h

include hi in
theorem Joined.node_target {a : NodeId} (ha : t.locate i pos = some a) (hb : t.locate j pos = none) :
    t'.node a = t.node a := by
  apply hjoined.node_eq
  intro q b hq hb'
  obtain rfl := hi.unique hq ha
  rw [hb] at hb'
  cases hb'

include hapart in
theorem Joined.node_source {b : NodeId} (hb : t.locate j pos = some b) : t'.node b = t.node b := by
  apply hjoined.node_eq
  intro q b' hq
  exact absurd hb (hapart q pos b hq)

include hi hj hapart

/-- The positions of the target after a merge are those of both. -/
theorem Joined.locate_target (pos : Position) :
    t'.locate i pos = (t.locate i pos).or (t.locate j pos) := by
  induction pos using List.reverseRecOn with
  | nil => rfl
  | append_singleton pos s ih =>
      rw [locate_concat, locate_concat, locate_concat, ih]
      cases ha : t.locate i pos with
      | none =>
          cases hb : t.locate j pos with
          | none => rfl
          | some b =>
              rw [Option.none_or, Option.bind_some, Option.bind_none, Option.none_or, Option.bind_some,
                hjoined.node_source hapart hb]
      | some a =>
          rw [Option.some_or, Option.bind_some, Option.bind_some]
          cases hb : t.locate j pos with
          | none => rw [hjoined.node_target hi ha hb, Option.bind_none, Option.or_none]
          | some b => rw [hjoined.node_combine ha hb, next_combine (hj.keys hb), Option.bind_some]

end Joined

/-- Positions that are not below the target of a merge are as they were. -/
theorem Joined.locate_outside (hjoined : Joined t t' [(i, j)]) (hroot : IsTree t root)
    (hp : t.locate root (Pattern.position p) = some i)
    (hpos : ∀ q, q ≠ [] → pos ≠ Pattern.position p ++ q) :
    t'.locate root pos = t.locate root pos := by
  induction pos using List.reverseRecOn with
  | nil => rfl
  | append_singleton pos s ih =>
      have habove (q : Position) : pos ≠ Pattern.position p ++ q := by
        rintro rfl
        exact hpos (q ++ [s]) (List.append_ne_nil_of_right_ne_nil q (List.cons_ne_nil s []))
          (List.append_assoc _ _ _)
      rw [locate_concat, locate_concat, ih fun q _ => habove q]
      cases hk : t.locate root pos with
      | none => rfl
      | some k =>
          have hnode : t'.node k = t.node k := by
            apply hjoined.node_eq
            intro q b hq
            exact absurd (hroot.unique hk ((locate_append_of_some hp q).trans hq)) (habove q)
          rw [Option.bind_some, Option.bind_some, hnode]

/-- After a merge into the node of a pattern, the source's plan is behind the target's, below the
pattern. -/
theorem Joined.shows (hjoined : Joined t t' [(i, j)]) (hroot : Draws t root plan)
    (hsource : Draws t j inner) (hapart : Apart t root j)
    (hdistinct : ∀ pos, (inner.content pos).Distinct) (hagree : ¬Disagree t [(i, j)])
    (hp : t.locate root (Pattern.position p) = some i) (hpath : plan.Covers p) :
    Shows t' root (plan ++ inner.map (Registration.below p)) := by
  have hi : IsTree t i := hroot.toIsTree.sub hp
  have hapart' : Apart t i j := fun q q' k hq hq' =>
    hapart _ q' k ((locate_append_of_some hp q).trans hq) hq'
  have hdistinct' {pos : Position} {b : NodeId} (hb : t.locate j pos = some b) :
      (t.node b).content.Distinct := hsource.content hb ▸ hdistinct pos
  have hnode : t'.locate root (Pattern.position p) = some i := by
    rw [hjoined.locate_outside hroot.toIsTree hp, hp]
    intro q hq hself
    exact hq (List.append_right_eq_self.mp hself.symm)
  have hbelow (q : Position) : t'.locate root (Pattern.position p ++ q) =
      (t.locate root (Pattern.position p ++ q)).or (t.locate j q) := by
    rw [locate_append_of_some hnode, locate_append_of_some hp,
      hjoined.locate_target hi hsource.toIsTree hapart']
  have houtside {pos : Position} (hpos : ¬Pattern.position p <+: pos) :
      t'.locate root pos = t.locate root pos := by
    apply hjoined.locate_outside hroot.toIsTree hp
    rintro q - rfl
    exact hpos (List.prefix_append _ q)
  constructor
  · intro pos
    by_cases hpos : Pattern.position p <+: pos
    · obtain ⟨q, rfl⟩ := hpos
      rw [hbelow, Option.isSome_or, hroot.located, hsource.located, Plan.reaches_below_covered hpath]
    · rw [houtside hpos, hroot.located, Plan.reaches_below_outside hpath hpos]
  · intro pos k hk
    by_cases hpos : Pattern.position p <+: pos
    · obtain ⟨q, rfl⟩ := hpos
      rw [Plan.content_append, Plan.content_below_within]
      have ha' : t.locate root (Pattern.position p ++ q) = t.locate i q := locate_append_of_some hp q
      rw [hbelow, ha'] at hk
      cases ha : t.locate i q with
      | none =>
          rw [ha, Option.none_or] at hk
          have hplan : plan.content (Pattern.position p ++ q) = .empty :=
            Plan.content_of_not_reaches (by rw [← hroot.located, ha', ha]; rfl)
          rw [hjoined.node_source hapart' hk, hsource.content hk, hplan,
            Content.empty_append (hdistinct q).names]
      | some a =>
          rw [ha, Option.some_or] at hk
          obtain rfl := Option.some.inj hk
          have hcontent := hroot.content (ha'.trans ha)
          cases hb : t.locate j q with
          | none =>
              have hinner : inner.content q = .empty :=
                Plan.content_of_not_reaches (by rw [← hsource.located, hb]; rfl)
              rw [hjoined.node_target hi ha hb, hcontent, hinner, Content.append_empty]
          | some b =>
              have hfree : ¬(t.node a).content.Clashes (t.node b).content := fun hclash =>
                hagree ⟨(i, j), List.mem_singleton_self _, q, a, b, ha, hb, hclash⟩
              rw [hjoined.node_combine ha hb, content_combine (hsource.keys hb) (hdistinct' hb) hfree,
                hcontent, hsource.content hb]
    · rw [houtside hpos] at hk
      have hsame : t'.node k = t.node k := by
        apply hjoined.node_eq
        intro q b hq
        refine absurd (hroot.unique hk ((locate_append_of_some hp q).trans hq)) ?_
        rintro rfl
        exact hpos (List.prefix_append _ q)
      rw [hsame, hroot.content hk, Plan.content_below_outside hpath hpos]

/-- A merge into the node of a pattern clashes where the plans do. -/
theorem disagree_iff (hroot : Shows t root plan) (hsource : Shows t j inner)
    (hp : t.locate root (Pattern.position p) = some i) :
    Disagree t [(i, j)] ↔
      ∃ pos, (plan.content (Pattern.position p ++ pos)).Clashes (inner.content pos) := by
  have hlocate (pos : Position) : t.locate root (Pattern.position p ++ pos) = t.locate i pos :=
    locate_append_of_some hp pos
  constructor
  · rintro ⟨q, hq, pos, a, b, ha, hb, hclash⟩
    rw [List.mem_singleton.mp hq] at ha hb
    rw [hroot.content ((hlocate pos).trans ha), hsource.content hb] at hclash
    exact ⟨pos, hclash⟩
  · rintro ⟨pos, hclash⟩
    cases ha : t.locate i pos with
    | none =>
        have hempty : plan.content (Pattern.position p ++ pos) = .empty :=
          Plan.content_of_not_reaches (by rw [← hroot.located, hlocate, ha]; rfl)
        rw [hempty] at hclash
        exact absurd hclash (Content.not_empty_clashes _)
    | some a =>
        cases hb : t.locate j pos with
        | none =>
            have hempty : inner.content pos = .empty :=
              Plan.content_of_not_reaches (by rw [← hsource.located, hb]; rfl)
            rw [hempty] at hclash
            exact absurd hclash (Content.not_clashes_empty _)
        | some b =>
            refine ⟨(i, j), List.mem_singleton_self _, pos, a, b, ha, hb, ?_⟩
            rwa [hroot.content ((hlocate pos).trans ha), hsource.content hb]

end Trie

namespace Router

open Trie

variable {S : Type}

/-! ## Replayed registrations -/

section Free

variable {plan more : Plan (Handler S) (Middleware S)} {r : Registration (Handler S) (Middleware S)}

theorem free_append_singleton :
    Free plan (more ++ [r]) ↔
      Free plan more ∧ ¬(Plan.content (plan ++ more) r.position).Clashes r.item.content := by
  induction more generalizing plan with
  | nil => simp [Free]
  | cons x more ih =>
      rw [List.cons_append, Free, ih, Free, and_assoc, List.append_assoc]
      rfl

theorem clashes_content_iff (c : Content (Handler S) (Middleware S)) (pos : Position) :
    c.Clashes (r.content pos) ↔ r.position = pos ∧ c.Clashes r.item.content := by
  by_cases hpos : r.position = pos
  · subst hpos
    rw [Registration.content_position]
    exact (and_iff_right rfl).symm
  · rw [Registration.content_of_ne hpos]
    refine iff_of_false ?_ fun h => hpos h.1
    exact Content.not_clashes_empty c

/-- Registrations that do not clash among themselves clash below a pattern where their plan clashes
with what is there. -/
theorem free_below_iff (p : Pattern) (hmore : Free [] more) :
    Free plan (more.map (Registration.below p)) ↔
      ¬∃ pos, (plan.content (Pattern.position p ++ pos)).Clashes (more.content pos) := by
  induction more using List.reverseRecOn with
  | nil =>
      refine iff_of_true trivial ?_
      rintro ⟨pos, hclash⟩
      exact Content.not_clashes_empty _ hclash
  | append_singleton more r ih =>
      obtain ⟨hmore, hlast⟩ := free_append_singleton.mp hmore
      have hposition : (r.below p).position = Pattern.position p ++ r.position :=
        Pattern.position_append p r.pattern
      have hbehind : (Plan.content (plan ++ more.map (Registration.below p))
          (r.below p).position).Clashes r.item.content ↔
            (plan.content (Pattern.position p ++ r.position)).Clashes r.item.content := by
        rw [hposition, Plan.content_append, Plan.content_below_within, Content.clashes_append_left]
        exact or_iff_left hlast
      rw [List.map_append, List.map_singleton, free_append_singleton, ih hmore, ← not_or]
      refine not_congr ?_
      simp only [Plan.content_append_singleton, Content.clashes_append_right, exists_or]
      refine or_congr_right (hbehind.trans ?_)
      simp only [clashes_content_iff, exists_eq_left']

end Free

/-- A view of a path, on which calls can be made. -/
def Building.sub (b : Building S) (path : String) : Building S :=
  let (i, t) := b.routes.nodeAt b.views.router path
  ⟨t, ⟨i, []⟩⟩

section Mount

variable {root : NodeId} {b : Building S} {plan : Plan (Handler S) (Middleware S)}
  {vs : Views Pattern} {t : Routes S} {calls outerCalls innerCalls : List (Call S)}
  {outer inner : Building S}

theorem built_sub (h : Built b.views.router b plan vs) (path : String) :
    Built b.views.router (b.sub path) (plan ++ [⟨Pattern.ofPath path, .view⟩])
      ⟨Pattern.ofPath path, []⟩ := by
  have hroot : b.routes.locate b.views.router (Pattern.position []) = some b.views.router := rfl
  have hnode := h.draws.hasNode_nodeAt hroot (Or.inl rfl) path
  refine ⟨hnode.draws, ⟨⟨hnode.located, Plan.covers_last plan ⟨_, .view⟩⟩, .nil⟩, ?_⟩
  exact distinct_append_singleton h.distinct (Content.not_clashes_empty _)

/-- An outer router in the trie that has an inner one too. -/
theorem draws_behind (h : Built root outer plan vs)
    (hgrows : Grows outer.routes.addNode.2 inner.routes outer.routes.size) :
    Draws inner.routes root plan ∧ Apart inner.routes root outer.routes.size := by
  have hkeeps : Keeps outer.routes outer.routes.addNode.2 root := fun pos k _ => node_addNode
  have hdraws : Draws outer.routes.addNode.2 root plan :=
    h.draws.keeps hkeeps (by rw [size_addNode]; exact Nat.le_succ _)
  have hapart : Apart outer.routes.addNode.2 root outer.routes.size := by
    intro p q k hp hq
    rw [hkeeps.locate] at hp
    rw [locate_fresh] at hq
    split at hq
    · obtain rfl := Option.some.inj hq
      exact Nat.lt_irrefl _ (h.draws.lt hp)
    · cases hq
  constructor
  · exact hdraws.keeps (hgrows.keeps hdraws.toIsTree hapart) hgrows.size
  · exact hgrows.apart hdraws.toIsTree hapart

/-- A router is mounted with the same outcome as if its calls were made on a view of the path. -/
theorem mount_ofRouter (houter : ∀ c ∈ outerCalls, c.action.IsPlain)
    (hinner : ∀ c ∈ innerCalls, c.action.IsPlain) (ho : (Building.fresh t).run outerCalls = some outer)
    (hi : (Building.fresh outer.routes).run innerCalls = some inner) (path : String) :
    let mounted := Router.mount inner.routes outer.views.router path (.ofRouter inner.views.router)
    Router.handle inner.routes outer.views.router path (.ofRouter inner.views.router) = mounted ∧
      match (outer.sub path).run innerCalls with
      | none => ∃ e, mounted.1 = .clash e
      | some replayed => mounted.1 = .done ∧
          (∀ method cursor params, mounted.2.dispatch outer.views.router method cursor params =
            replayed.routes.dispatch outer.views.router method cursor params) ∧
          ∀ routers, Router.route mounted.2 routers outer.views.router =
            Router.route replayed.routes routers outer.views.router := by
  intro mounted
  refine ⟨rfl, ?_⟩
  obtain ⟨vs, hbuilt, -, hroot, -⟩ := built_run houter ho
  obtain ⟨vs', hbuilt', hfree, hroot', hgrows⟩ := built_run hinner hi
  rw [← hroot] at hbuilt
  -- The replay adds to the outer plan the view of the path and, below the path, the inner plan.
  have hviews : (⟨Pattern.ofPath path, []⟩ : Views Pattern) =
      (⟨[], []⟩ : Views Pattern).map (Pattern.ofPath path ++ ·) := by simp [Views.map]
  have hreplay := (built_sub hbuilt path).run hinner
  rw [hviews, registrations_below, ← Router.plan, free_below_iff (Pattern.ofPath path) hfree] at hreplay
  -- The mount merges the inner tree into the node of the path, which adds the same.
  obtain ⟨hdraws, hapart⟩ := draws_behind hbuilt hgrows
  have hself : inner.routes.locate outer.views.router (Pattern.position []) =
      some outer.views.router := rfl
  obtain ⟨htarget, hlocated, hnode⟩ := hdraws.hasNode_nodeAt hself (Or.inl rfl) path
  have hsource := hbuilt'.draws.keeps (hnode.keeps hbuilt'.draws.toIsTree hapart.symm) hnode.size
  have hapart' := (hnode.apart hbuilt'.draws.toIsTree hapart.symm).symm
  have hcovers := Plan.covers_last (Router.plan outerCalls) ⟨Pattern.ofPath path, .view⟩
  have houtcome := outcome_merge (htarget.toIsTree.sub hlocated) hsource.toIsTree
    (fun p q k hp => hapart' _ q k ((locate_append_of_some hlocated p).trans hp))
    (fun hb => hsource.content hb ▸ hbuilt'.distinct _)
  have hmounted : mounted = (inner.routes.nodeAt outer.views.router path).2.merge
      (inner.routes.nodeAt outer.views.router path).1 outer.routes.size := by rw [← hroot']; rfl
  rw [← hmounted] at houtcome
  clear_value mounted
  have hdisagree := disagree_iff htarget.toShows hsource.toShows hlocated
  cases houtcome with
  | clash h =>
      rcases hreplay with ⟨-, hnone⟩ | ⟨hagree, -⟩
      · rw [hnone]
        exact ⟨_, rfl⟩
      · exact absurd (hdisagree.mp h) hagree
  | done hjoined hagree =>
      rcases hreplay with ⟨hclash, -⟩ | ⟨-, replayed, _, hrun, hreplayed, -⟩
      · exact absurd (fun h => hagree (hdisagree.mpr h)) hclash
      · have hshows := hjoined.shows htarget hsource hapart' hbuilt'.distinct hagree hlocated hcovers
        have hdispatch := hshows.dispatch_eq hreplayed.draws.toShows
        rw [hrun]
        refine ⟨rfl, hdispatch, ?_⟩
        intro routers
        funext request
        simp only [Router.route, hdispatch]

end Mount

/-! Pages that are mounted below `/shops/:id`, where `/shops/:shop` is a route. -/

def shopCalls : List (Call Unit) :=
  [⟨0, .on "GET" "/shops/:shop" (.ofService fun _ => .done (.plain 200))⟩]

def pageCalls : List (Call Unit) :=
  [⟨0, .on "POST" "/" (.ofService fun _ => .done (.plain 201))⟩,
    ⟨0, .handle "/pages/" (.ofService fun _ => .done (.plain 202))⟩]

theorem mount_ofRouter_pages :
    (∀ c ∈ shopCalls, c.action.IsPlain) ∧ (∀ c ∈ pageCalls, c.action.IsPlain) ∧
      ∃ outer inner replayed, (Building.fresh .empty).run shopCalls = some outer ∧
        (Building.fresh outer.routes).run pageCalls = some inner ∧
        (outer.sub "/shops/:id").run pageCalls = some replayed ∧
        ∀ method cursor params,
          (Router.mount inner.routes outer.views.router "/shops/:id"
            (.ofRouter inner.views.router)).2.dispatch outer.views.router method cursor params =
            replayed.routes.dispatch outer.views.router method cursor params := by
  have hshop : ∀ c ∈ shopCalls, c.action.IsPlain := by simp [shopCalls, Action.IsPlain]
  have hpage : ∀ c ∈ pageCalls, c.action.IsPlain := by
    simp [pageCalls, Action.IsPlain, Handler.ofService]
  have hall : (((Building.fresh .empty).run shopCalls).bind fun outer =>
      ((Building.fresh outer.routes).run pageCalls).bind fun _ =>
        (outer.sub "/shops/:id").run pageCalls).isSome = true := by decide
  obtain ⟨replayed, hall⟩ := Option.isSome_iff_exists.mp hall
  obtain ⟨outer, ho, hall⟩ := Option.bind_eq_some_iff.mp hall
  obtain ⟨inner, hi, hreplayed⟩ := Option.bind_eq_some_iff.mp hall
  have hmount := (mount_ofRouter hshop hpage ho hi "/shops/:id").2
  rw [hreplayed] at hmount
  exact ⟨hshop, hpage, outer, inner, replayed, ho, hi, hreplayed, hmount.2.1⟩

end Router

end WebResource
