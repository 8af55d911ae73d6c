import WebResource.Proofs.Router.Assembly
import WebResource.Proofs.Router.Following

namespace WebResource

/-!
# What a route changes

A new route is seen by the requests that come to a node on its way and go on as its pattern does. For a
router that has not been joined with another one these are the requests of the router itself whose
paths start as the pattern does. Routers that have been joined share nodes, and so the route too: a
router that is mounted below two paths gets it below both.
-/

namespace Trie

variable {H M : Type} {t t' u : Trie H M} {i j k s : NodeId} {p : Pattern} {pos rest way : Position}
  {method path : String} {h : H} {n : Node H M} {left avoid : List String} {P : List String → Prop}

/-- The way to a position below one node meets the way of a pattern below another one, where there is
a rest of the pattern to go. -/
def Crosses (t : Trie H M) (s i : NodeId) (p : Pattern) (pos rest : Position) : Prop :=
  ∃ k, t.locate s pos = some k ∧ Ahead t i (Pattern.position p) k rest

/-! ## How a pattern starts -/

/-- A path that starts as a pattern does, as all paths do if the pattern is the root. -/
def Pattern.Heads : Pattern → List String → Prop
  | [], _ => True
  | x :: _, s :: _ => x.step.Takes s
  | _ :: _, [] => False

/-- A way that only paths take that start as a pattern does. -/
def Pattern.HeadsWay : Pattern → Position → Prop
  | [], _ => True
  | x :: _, step :: _ => x.step = .dynamic ∨ x.step = step
  | _ :: _, [] => False

theorem Pattern.headsWay_position (p : Pattern) : p.HeadsWay (Pattern.position p) := by
  cases p with
  | nil => trivial
  | cons x p => exact Or.inr rfl

theorem takes_of_headsWay {x : PatternSegment} {step : Step} {s : String}
    (hway : x.step = .dynamic ∨ x.step = step) (hs : step.Takes s) : x.step.Takes s := by
  rcases hway with hdynamic | rfl
  · rw [hdynamic]
    trivial
  · exact hs

theorem heads_of_meets (hway : p.HeadsWay (pos ++ rest)) (hmeets : Meets pos rest left) :
    p.Heads left := by
  cases p with
  | nil => trivial
  | cons x p =>
      cases hmeets with
      | «end» => exact hway
      | here rest left hs => exact takes_of_headsWay hway hs
      | next hs hmore => exact takes_of_headsWay hway hs

/-- A way that does not start as a pattern does is followed by paths that do not either. -/
theorem exists_avoid (hway : ¬p.HeadsWay way) :
    ∃ avoid, ∀ left, List.Forall₂ (Step.Follows avoid) way left → ¬p.Heads left := by
  cases p with
  | nil => exact absurd trivial hway
  | cons x p =>
      cases x with
      | dynamic name =>
          refine ⟨[], ?_⟩
          intro left hleft
          cases hleft with
          | nil => exact id
          | cons hstep hmore => exact absurd (Or.inl rfl) hway
      | literal text =>
          refine ⟨[text], ?_⟩
          intro left hleft hheads
          cases hleft with
          | nil => exact hheads
          | cons hstep hmore =>
              obtain rfl : _ = text := hheads
              rcases hstep with rfl | ⟨rfl, hnot⟩
              · exact hway (Or.inr rfl)
              · exact hnot (List.mem_singleton_self _)

/-! ## A route for a pattern -/

/-- A handler is added for a method at the node of a pattern. -/
structure Adds (t : Trie H M) (i : NodeId) (p : Pattern) (method : String) (h : H) (t' : Trie H M) :
    Prop extends Extends t t' where
  alters : Alters t t' (Ahead t i (Pattern.position p))
  handler : ∃ j, t'.locate i (Pattern.position p) = some j ∧ (t'.node j).method? method = some h

theorem Opens.alters_setNode (hopens : Opens t i p j u) (hliterals : n.literals = (u.node j).literals)
    (hdynamic : n.dynamic = (u.node j).dynamic) (hfallback : n.fallback = (u.node j).fallback)
    (hpatterns : n.patterns = (u.node j).patterns)
    (hmiddlewares : n.middlewares = (u.node j).middlewares) :
    Alters t (u.setNode j n) (Ahead t i (Pattern.position p)) := by
  constructor
  · intro k _ _ _
    exact (field_setNode Node.patterns hpatterns k).trans (hopens.alike k).patterns
  · intro k _ _ _
    exact (field_setNode Node.fallback hfallback k).trans (hopens.alike k).fallback
  · intro k _ _ _
    exact (field_setNode Node.middlewares hmiddlewares k).trans (hopens.alike k).middlewares
  · intro k hk hout
    rw [node_setNode_of_ne, (hopens.alike k).methods]
    rintro rfl
    exact hout (hopens.ahead_end hk)
  · intro k text hk hout
    have hliteral := field_setNode (fun m => m.next (.literal text)) (next_congr hliterals hdynamic _) k
    exact hliteral.trans (hopens.next hk hout)
  · intro k hk hout
    have hchild := field_setNode Node.dynamic hdynamic k
    exact hchild.trans (dynamic_eq (hopens.next hk hout) (hopens.names hk hout))

theorem method?_append_singleton (hn : n.methods = (u.node j).methods ++ [(method, h)])
    (hnew : method ∉ (u.node j).methods.map Prod.fst) : n.method? method = some h := by
  have hnone : (u.node j).methods.find? (·.1 == method) = none := by
    rw [List.find?_eq_none]
    intro m hm heq
    exact hnew (List.mem_map.mpr ⟨m, hm, eq_of_beq heq⟩)
  rw [Node.method?, hn, List.find?_append, hnone, Option.none_or]
  simp

section Adds

variable (hadds : Adds t i p method h t')

include hadds

/-- Requests stay that do not come to the way of the route, or leave it there. -/
theorem Adds.stays (ht : Sound t) (hs : s < t.size)
    (hout : ∀ left, P left → ∀ pos rest, Crosses t s i p pos rest → ¬Meets pos rest left) :
    Stays t t' s P := by
  intro method cursor params hleft
  apply hadds.alters.dispatch_eq ht hs
  intro pos k rest hk hahead
  exact hout cursor.left hleft pos rest ⟨k, hk, hahead⟩

/-- Where the way of the route is met, some request finds the route. -/
theorem Adds.not_stays (hnew : t.Holds (· ≠ h) fun _ => True) (hcrosses : Crosses t s i p pos rest)
    (hP : ∀ left, List.Forall₂ (Step.Follows avoid) (pos ++ rest) left → P left) :
    ¬Stays t t' s P := by
  intro hstays
  obtain ⟨k, hk, front, hfront, hlocate⟩ := hcrosses
  obtain ⟨j, hj, hmethod⟩ := hadds.handler
  have hend : t'.locate s (pos ++ rest) = some j := by
    rw [locate_append_of_some (hadds.locate hk), ← locate_append_of_some (hadds.locate hlocate), hfront]
    exact hj
  obtain ⟨left, hleft, hwalks⟩ := exists_walks avoid hend
  have hfound : ((t'.node j).method? method <|> (t'.node j).fallback) = some h := by rw [hmethod]; rfl
  obtain ⟨route, hroute, hhandler, -⟩ := hwalks.exists_dispatch hfound "" [] .empty
  rw [hstays method ⟨"", [], left⟩ .empty (hP left hleft)] at hroute
  exact (hnew.dispatch hroute).handler hhandler

end Adds

end Trie

namespace Router

open Trie Assembly

variable {S : Type} {t t' : Routes S} {i : NodeId} {method path : String} {h : Handler S}

theorem adds_on (ht : Sound t) (hi : i < t.size) (hdone : Router.on t i method path h = (.done, t')) :
    Adds t i (.ofPath path) method h t' := by
  have hopens := opens_nodeAt ht hi path
  have hperforms := performs_on t i method path h
  rw [Action.run, hdone] at hperforms
  generalize t.nodeAt i path = r at hopens hperforms
  have hfree : ¬(r.2.node r.1).content.Clashes (Action.on method path h).item.content := by
    intro hclash
    obtain ⟨e, he⟩ := hperforms.clash hclash
    cases he
  obtain ⟨n, hn, hliterals, hdynamic, hcontent⟩ := hperforms.done hfree
  obtain rfl : t' = r.2.setNode r.1 n := congrArg Prod.snd hn
  have hnext := next_congr hliterals hdynamic
  constructor
  · exact hopens.toExtends.trans (extends_setNode hnext)
  · apply hopens.alters_setNode hliterals hdynamic
    · exact (congrArg Content.fallback hcontent).trans Option.or_none
    · exact congrArg PatternTable.mk ((congrArg Content.patterns hcontent).trans (List.append_nil _))
    · exact (congrArg Content.middlewares hcontent).trans (List.append_nil _)
  · refine ⟨r.1, (locate_setNode hopens.lt hnext _).trans hopens.located, ?_⟩
    rw [node_setNode_self hopens.lt]
    apply method?_append_singleton (congrArg Content.methods hcontent)
    intro hmem
    exact hfree (Or.inl ⟨(method, h), List.mem_singleton_self _, hmem⟩)

/-- What a new route for a pattern changes in the routers of a program. -/
structure Local (w : Assembly S) (r : Ref) (p : Pattern) (h : Handler S) (t' : Routes S) : Prop where
  /-- Requests stay that do not come to the way of the route, or leave it there. -/
  stays : ∀ s ∈ w.refs, Stays w.routes t' s.node fun left =>
    ∀ pos rest, Crosses w.routes s.node r.node p pos rest → ¬Meets pos rest left
  /-- Those are all requests of the routers that have not been joined with the one of the route. -/
  apart : ∀ s ∈ w.refs, ¬Linked w.joins s.origin r.origin → Stays w.routes t' s.node fun _ => True
  /-- If that has not been joined, its own requests stay that do not start as the pattern does. -/
  alone : Alone w.joins r.origin → Stays w.routes t' r.node fun left => ¬p.Heads left
  /-- A handler that was nowhere before is seen by each router that comes to the way of the route. -/
  apart_iff : w.routes.Holds (· ≠ h) (fun _ => True) → ∀ s ∈ w.refs,
    (Stays w.routes t' s.node fun _ => True) ↔ ∀ pos rest, ¬Crosses w.routes s.node r.node p pos rest
  /-- And its own router sees it elsewhere too unless all ways that come to the one of the route start
  as the pattern does. -/
  own_iff : w.routes.Holds (· ≠ h) (fun _ => True) →
    ((Stays w.routes t' r.node fun left => ¬p.Heads left) ↔
      ∀ pos rest, Crosses w.routes r.node r.node p pos rest → p.HeadsWay (pos ++ rest))

theorem on_local {w : Assembly S} (hw : Reachable w) {r : Ref} (hr : r ∈ w.refs)
    (hdone : Router.on w.routes r.node method path h = (.done, t')) :
    Local w r (.ofPath path) h t' := by
  let p := Pattern.ofPath path
  obtain ⟨owner, howned⟩ := hw.owned
  have hadds : Adds w.routes r.node p method h t' := adds_on howned.sound (howned.placed hr).lt hdone
  have hapart {s : Ref} (hs : s ∈ w.refs)
      (hout : ∀ pos rest, ¬Crosses w.routes s.node r.node p pos rest) :
      Stays w.routes t' s.node fun _ => True :=
    hadds.stays howned.sound (howned.placed hs).lt fun _ _ pos rest hcrosses =>
      absurd hcrosses (hout pos rest)
  have hown (hway : ∀ pos rest, Crosses w.routes r.node r.node p pos rest → p.HeadsWay (pos ++ rest)) :
      Stays w.routes t' r.node fun left => ¬p.Heads left :=
    hadds.stays howned.sound (howned.placed hr).lt fun _ hheads pos rest hcrosses hmeets =>
      hheads (heads_of_meets (hway pos rest hcrosses) hmeets)
  constructor
  · intro s hs
    exact hadds.stays howned.sound (howned.placed hs).lt fun _ hleft => hleft
  · intro s hs hunlinked
    apply hapart hs
    rintro pos rest ⟨k, hk, front, -, hlocate⟩
    have hbelow := howned.linked_below hr hlocate
    exact hunlinked (((howned.linked_below hs hk).symm _ _).trans _ _ _ hbelow)
  · intro halone
    apply hown
    rintro pos rest ⟨k, hk, front, hfront, hlocate⟩
    -- In a tree there is one way to a node, the one of the pattern.
    obtain ⟨htree, root, hroot⟩ := (howned.placed hr).tree halone
    rw [(htree.sub hroot).unique hk hlocate, hfront]
    exact p.headsWay_position
  · intro hnew s hs
    refine ⟨?_, hapart hs⟩
    intro hstays pos rest hcrosses
    have hall : ∀ left, List.Forall₂ (Step.Follows []) (pos ++ rest) left → True := fun _ _ => trivial
    exact hadds.not_stays hnew hcrosses hall hstays
  · intro hnew
    refine ⟨?_, hown⟩
    intro hstays pos rest hcrosses
    by_contra hway
    obtain ⟨avoid, havoid⟩ := exists_avoid hway
    exact hadds.not_stays hnew hcrosses havoid hstays

/-! A router with a route for `/x` that is mounted below `/a` and below `/b`. The route `/a/x/y` that
the outer one then gets is one for `/b/x/y` too. -/

def pageRef : Ref := ⟨1, 1⟩

def siteRef : Ref := ⟨0, 0⟩

def pageHandler : Handler Unit := .ofService fun _ => .done (.plain 200)

def lateHandler : Handler Unit := .ofService fun _ => .done (.plain 202)

def onePage : Assembly Unit := Assembly.empty.new.new.call pageRef (.on "GET" "/x" pageHandler)

def mountedTwice : Assembly Unit := (onePage.join siteRef "/a" pageRef).join siteRef "/b" pageRef

def siteNode (literals : List (String × NodeId)) (methods : List (String × Handler Unit)) :
    Node (Handler Unit) (Middleware Unit) :=
  { Node.empty with literals, methods }

theorem mount_onePage : Router.mount onePage.routes siteRef.node "/a" (.ofRouter pageRef.node) =
    (.done, ⟨[siteNode [("a", 3)] [], siteNode [("x", 2)] [], siteNode [] [("GET", pageHandler)],
      siteNode [("x", 2)] []]⟩) := by
  have hmerge := merge_of_common_nil (t := (onePage.routes.nodeAt 0 "/a").2) (i := 3) (j := 1)
    (by decide) (by decide) (by rfl)
  exact hmerge

theorem mount_again : Router.mount (onePage.join siteRef "/a" pageRef).routes siteRef.node "/b"
    (.ofRouter pageRef.node) = (.done, ⟨[siteNode [("a", 3), ("b", 4)] [], siteNode [("x", 2)] [],
      siteNode [] [("GET", pageHandler)], siteNode [("x", 2)] [], siteNode [("x", 2)] []]⟩) := by
  rw [join, mount_onePage]
  have hmerge := merge_of_common_nil (i := 4) (j := 1) (t := (Trie.nodeAt ⟨[siteNode [("a", 3)] [],
    siteNode [("x", 2)] [], siteNode [] [("GET", pageHandler)], siteNode [("x", 2)] []]⟩ 0 "/b").2)
    (by decide) (by decide) (by rfl)
  exact hmerge

theorem pageHandler_ne_late : pageHandler ≠ lateHandler := by
  intro heq
  have hserve := congrArg (fun h : Handler Unit => h.serve (fun _ _ => .done (.plain 404))
    ⟨"GET", ⟨none, none, "/", none⟩, [], [], .empty⟩) heq
  have hstatus := congrArg Response.status (Prog.done.inj hserve)
  exact absurd hstatus (by decide)

theorem holds_siteNode (literals : List (String × NodeId)) {methods : List (String × Handler Unit)}
    (hmethods : ∀ m ∈ methods, m.2 ≠ lateHandler) :
    (siteNode literals methods).Holds (· ≠ lateHandler) fun _ => True := by
  constructor
  · intro path h hlookup
    cases hlookup
  · intro method h hmethod
    obtain ⟨m, hm, rfl⟩ := Option.map_eq_some_iff.mp hmethod
    exact hmethods m (List.mem_of_find?_eq_some hm)
  · intro h hfallback
    cases hfallback
  · intro m _
    trivial

theorem holds_mountedTwice : mountedTwice.routes.Holds (· ≠ lateHandler) fun _ => True := by
  have hroutes := congrArg Prod.snd mount_again
  have hall : ∀ n ∈ mountedTwice.routes.nodes, n.Holds (· ≠ lateHandler) fun _ => True := by
    rw [mountedTwice, join, hroutes]
    simp only [List.forall_mem_cons]
    refine ⟨holds_siteNode _ nofun, holds_siteNode _ nofun, holds_siteNode _ ?_,
      holds_siteNode _ nofun, holds_siteNode _ nofun, nofun⟩
    intro m hm
    obtain rfl := List.mem_singleton.mp hm
    exact pageHandler_ne_late
  intro i
  rw [node]
  cases hi : mountedTwice.routes.nodes[i]? with
  | none => exact Node.holds_empty
  | some n => exact hall n (List.mem_of_getElem? hi)

theorem on_local_mounted_twice :
    Reachable mountedTwice ∧ siteRef ∈ mountedTwice.refs ∧
      ∃ t', Router.on mountedTwice.routes siteRef.node "GET" "/a/x/y" lateHandler = (.done, t') ∧
        ¬Stays mountedTwice.routes t' siteRef.node fun left =>
          ¬(Pattern.ofPath "/a/x/y").Heads left := by
  have hreachable : Reachable mountedTwice := by
    refine .join (.join (.call (.new (.new .empty)) ?_ trivial) ?_ ?_ ?_) ?_ ?_ ?_
    · decide
    · decide
    · decide
    · intro hendless
      cases hendless.symm.trans (congrArg Prod.fst mount_onePage)
    · decide
    · decide
    · intro hendless
      cases hendless.symm.trans (congrArg Prod.fst mount_again)
  have hmem : siteRef ∈ mountedTwice.refs := by decide
  have hroutes : mountedTwice.routes = _ := congrArg Prod.snd mount_again
  have hcrosses : Crosses mountedTwice.routes 0 0 (Pattern.ofPath "/a/x/y")
      [.literal "b", .literal "x"] [.literal "y"] := by
    rw [hroutes]
    exact ⟨2, by decide, [.literal "a", .literal "x"], by decide, by decide⟩
  obtain ⟨t', hdone⟩ : ∃ t', Router.on mountedTwice.routes siteRef.node "GET" "/a/x/y" lateHandler =
      (.done, t') := by
    rw [hroutes]
    exact ⟨_, rfl⟩
  refine ⟨hreachable, hmem, t', hdone, ?_⟩
  intro hstays
  have hlocal := on_local hreachable hmem hdone
  have hway : Step.literal "a" = .dynamic ∨ Step.literal "a" = .literal "b" :=
    (hlocal.own_iff holds_mountedTwice).mp hstays _ _ hcrosses
  exact absurd hway (by decide)

end Router

end WebResource
