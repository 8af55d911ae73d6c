import Mathlib.Data.List.Infix
import WebResource.Proofs.Context.Params
import WebResource.Proofs.Router.Registering

namespace WebResource

/-!
# How requests are matched

A plan decides where a path leads, which handler serves it and what the handler sees. A router that
was built by calls serves every request by its plan.
-/

namespace Trie

variable {H M : Type}

namespace Item

def handlerFor (method : String) : Item H M → Option H
  | .method m h => if m = method then some h else none
  | _ => none

def mounted : Item H M → Option H
  | .mount h => some h
  | _ => none

def wrappers : Item H M → List M
  | .middlewares ms => ms
  | _ => []

theorem find?_methods (item : Item H M) (method : String) :
    (item.content.methods.find? (·.1 == method)).map Prod.snd = item.handlerFor method := by
  cases item with
  | method m h => by_cases hm : m = method <;> simp [content, handlerFor, hm]
  | _ => rfl

theorem fallback_content (item : Item H M) : item.content.fallback = item.mounted := by
  cases item <;> rfl

theorem middlewares_content (item : Item H M) : item.content.middlewares = item.wrappers := by
  cases item <;> rfl

end Item

namespace Plan

/-- The steps of a path below a position. A literal step goes before a dynamic one; where the plan
has neither, the steps end. -/
def follow (plan : Plan H M) (pos : Position) : List String → Position
  | [] => []
  | s :: path =>
    if plan.reaches (pos ++ [.literal s]) then .literal s :: follow plan (pos ++ [.literal s]) path
    else if plan.reaches (pos ++ [.dynamic]) then .dynamic :: follow plan (pos ++ [.dynamic]) path
    else []

def methodAt (plan : Plan H M) (pos : Position) (method : String) : Option H :=
  plan.findSome? fun r => if r.position = pos then r.item.handlerFor method else none

def mountAt (plan : Plan H M) (pos : Position) : Option H :=
  plan.findSome? fun r => if r.position = pos then r.item.mounted else none

def middlewaresAt (plan : Plan H M) (pos : Position) : List M :=
  plan.flatMap fun r => if r.position = pos then r.item.wrappers else []

/-- A pattern of the plan uses a name for the segment behind a position. -/
def named (plan : Plan H M) (pos : Position) (name : String) : Bool :=
  plan.any fun r => Pattern.nameAt pos r.pattern = some name

/-- The handler for a request that has come to a position with so much of its path left. -/
def choose (plan : Plan H M) (pos : Position) (left : List String) (method : String) : Option H :=
  match left with
  | [] => (plan.methodAt pos method).or (plan.mountAt pos)
  | _ :: _ => plan.mountAt pos

/-- The middlewares of all positions that are passed, the first position's outermost. -/
def around (plan : Plan H M) (pos steps : Position) : List M :=
  steps.inits.flatMap fun q => plan.middlewaresAt (pos ++ q)

/-- The values that dynamic steps take, the deepest first, each with the position before it. -/
def captured (pos : Position) : Position → List String → List (Position × String)
  | .literal s :: steps, _ :: path => captured (pos ++ [.literal s]) steps path
  | .dynamic :: steps, s :: path =>
    captured (pos ++ [.dynamic]) steps path ++ [(pos, Percent.decodeSegment s)]
  | _, _ => []

/-- The deepest value that is captured under a name. -/
def bound (plan : Plan H M) (values : List (Position × String)) (name : String) : Option String :=
  (values.find? fun v => plan.named v.1 name).map Prod.snd

variable {plan : Plan H M} {pos : Position}

/-! ## The content of a plan -/

theorem find?_methods (plan : Plan H M) (pos : Position) (method : String) :
    ((content plan pos).methods.find? (·.1 == method)).map Prod.snd = plan.methodAt pos method := by
  induction plan using List.reverseRecOn with
  | nil => rfl
  | append_singleton plan r ih =>
      rw [content_append_singleton, methodAt, List.findSome?_append, ← methodAt, ← ih]
      simp only [Content.append, List.find?_append, Option.map_or, List.findSome?_singleton]
      refine congrArg _ ?_
      by_cases hpos : r.position = pos
      · rw [Registration.content, if_pos hpos, if_pos hpos, ← r.item.find?_methods]
      · rw [Registration.content, if_neg hpos, if_neg hpos]
        rfl

theorem fallback_content (plan : Plan H M) (pos : Position) :
    (content plan pos).fallback = plan.mountAt pos := by
  induction plan using List.reverseRecOn with
  | nil => rfl
  | append_singleton plan r ih =>
      rw [content_append_singleton, mountAt, List.findSome?_append, ← mountAt, ← ih]
      simp only [Content.append, List.findSome?_singleton]
      refine congrArg _ ?_
      by_cases hpos : r.position = pos
      · rw [Registration.content, if_pos hpos, if_pos hpos, ← r.item.fallback_content]
      · rw [Registration.content, if_neg hpos, if_neg hpos]
        rfl

theorem middlewares_content (plan : Plan H M) (pos : Position) :
    (content plan pos).middlewares = plan.middlewaresAt pos := by
  induction plan using List.reverseRecOn with
  | nil => rfl
  | append_singleton plan r ih =>
      rw [content_append_singleton, middlewaresAt, List.flatMap_append, ← middlewaresAt, ← ih]
      simp only [Content.append, List.flatMap_singleton]
      refine congrArg _ ?_
      by_cases hpos : r.position = pos
      · rw [Registration.content, if_pos hpos, if_pos hpos, ← r.item.middlewares_content]
      · rw [Registration.content, if_neg hpos, if_neg hpos]
        rfl

theorem named_iff {name : String} :
    plan.named pos name = true ↔ name ∈ (content plan pos).names := by
  rw [mem_names_content, named, List.any_eq_true]
  simp only [decide_eq_true_eq]

/-- No pattern tables are filled. -/
def IsBare (plan : Plan H M) : Prop := ∀ r ∈ plan, ∀ p h, r.item ≠ .pattern p h

theorem patterns_content (h : IsBare plan) (pos : Position) : (content plan pos).patterns = [] := by
  induction plan using List.reverseRecOn with
  | nil => rfl
  | append_singleton plan r ih =>
      have hplan : IsBare plan := fun r hr => h r (List.mem_append_left _ hr)
      have hr := h r (List.mem_append_right _ (List.mem_singleton_self r))
      rw [content_append_singleton]
      simp only [Content.append, ih hplan, List.nil_append]
      by_cases hpos : r.position = pos
      · rw [Registration.content, if_pos hpos]
        cases hitem : r.item with
        | pattern p h => exact absurd hitem (hr p h)
        | _ => rfl
      · rw [Registration.content, if_neg hpos]
        rfl

theorem around_cons (plan : Plan H M) (pos : Position) (s : Step) (steps : Position) :
    plan.around pos (s :: steps) = plan.middlewaresAt pos ++ plan.around (pos ++ [s]) steps := by
  simp only [around, List.inits_cons, List.flatMap_cons, List.flatMap_map, List.append_nil,
    List.append_assoc, List.singleton_append]

theorem around_nil (plan : Plan H M) (pos : Position) : plan.around pos [] = plan.middlewaresAt pos := by
  simp [around]

end Plan

/-! ## Walks -/

variable {t : Trie H M} {root i : NodeId} {pos : Position} {plan : Plan H M}

theorem Shows.next_eq_none (h : Shows t root plan) (hi : t.locate root pos = some i) {s : Step}
    (hs : plan.reaches (pos ++ [s]) ≠ true) : (t.node i).next s = none := by
  rw [← h.isSome_next hi] at hs
  exact Option.not_isSome_iff_eq_none.mp hs

theorem visit_of_bare {w : Walk H M} (h : (t.node w.node).patterns.entries = []) (uri : String)
    (left : List String) :
    t.visit uri left w = { w with middlewares := w.middlewares ++ (t.node w.node).middlewares } := by
  have hlookup (path : String) : (t.node w.node).patterns.lookup path = none := by
    rw [PatternTable.lookup, h, PatternTable.longest, Option.map_none]
  simp only [visit, hlookup]

theorem settle_of_none {w : Walk H M} (h : w.rewind = none) (uri : String) (left : List String)
    (found : Option H) : settle uri left w found = found.map fun h =>
      ⟨h, ⟨uri, w.passed, left⟩, w.params, w.middlewares, false⟩ := by
  cases found with
  | none => exact h
  | some h => rfl

section Steps

variable {w : Walk H M}

theorem Shows.visit_eq (h : Shows t root plan) (hbare : Plan.IsBare plan)
    (hw : t.locate root pos = some w.node) (uri : String) (left : List String) :
    t.visit uri left w = { w with middlewares := w.middlewares ++ plan.middlewaresAt pos } := by
  have hmiddlewares : (t.node w.node).middlewares = plan.middlewaresAt pos :=
    (congrArg Content.middlewares (h.content hw)).trans (Plan.middlewares_content plan pos)
  have hpatterns : (t.node w.node).patterns.entries = [] :=
    (congrArg Content.patterns (h.content hw)).trans (Plan.patterns_content hbare pos)
  rw [visit_of_bare hpatterns, hmiddlewares]

theorem Shows.fallback_eq (h : Shows t root plan) (hi : t.locate root pos = some i) :
    (t.node i).fallback = plan.mountAt pos :=
  (congrArg Content.fallback (h.content hi)).trans (Plan.fallback_content plan pos)

theorem Shows.walk_end (h : Shows t root plan) (hbare : Plan.IsBare plan)
    (hw : t.locate root pos = some w.node) (hrewind : w.rewind = none) (method uri : String) :
    t.walk method uri [] w = (plan.choose pos [] method).map fun h =>
      ⟨h, ⟨uri, w.passed, []⟩, w.params, w.middlewares ++ plan.middlewaresAt pos, false⟩ := by
  have hmethod : (t.node w.node).method? method = plan.methodAt pos method := by
    have hmethods := Plan.find?_methods plan pos method
    rw [← h.content hw] at hmethods
    exact hmethods
  have hfound : (plan.methodAt pos method <|> plan.mountAt pos) = plan.choose pos [] method :=
    Option.orElse_eq_or
  rw [walk, h.visit_eq hbare hw]
  simp only [hmethod, h.fallback_eq hw, hfound]
  exact settle_of_none
    (w := { w with middlewares := w.middlewares ++ plan.middlewaresAt pos }) hrewind uri [] _

theorem Shows.walk_literal (h : Shows t root plan) (hbare : Plan.IsBare plan)
    (hw : t.locate root pos = some w.node) {s : String}
    (hs : plan.reaches (pos ++ [.literal s]) = true) (method uri : String) (left : List String) :
    ∃ j, t.locate root (pos ++ [.literal s]) = some j ∧ t.walk method uri (s :: left) w =
      t.walk method uri left { w with
        node := j
        passed := w.passed ++ [s]
        middlewares := w.middlewares ++ plan.middlewaresAt pos } := by
  rw [← h.located, Option.isSome_iff_exists] at hs
  obtain ⟨j, hj⟩ := hs
  have hnext : (t.node w.node).literal? s = some j := by
    rw [locate_concat, hw, Option.bind_some] at hj
    exact hj
  refine ⟨j, hj, ?_⟩
  rw [walk, h.visit_eq hbare hw]
  simp only [hnext]

theorem Shows.walk_dynamic (h : Shows t root plan) (hbare : Plan.IsBare plan)
    (hw : t.locate root pos = some w.node) {s : String}
    (hs : plan.reaches (pos ++ [.literal s]) ≠ true) (hd : plan.reaches (pos ++ [.dynamic]) = true)
    (method uri : String) (left : List String) :
    ∃ j names, t.locate root (pos ++ [.dynamic]) = some j ∧
      (∀ name, name ∈ names ↔ plan.named pos name = true) ∧ t.walk method uri (s :: left) w =
        t.walk method uri left { w with
          node := j
          passed := w.passed ++ [s]
          params := w.params.addAll names (Percent.decodeSegment s)
          middlewares := w.middlewares ++ plan.middlewaresAt pos } := by
  have hliteral : (t.node w.node).literal? s = none := h.next_eq_none hw hs
  rw [← h.located, Option.isSome_iff_exists] at hd
  obtain ⟨j, hj⟩ := hd
  have hnext : (t.node w.node).dynamic.map DynamicChild.node = some j := by
    rw [locate_concat, hw, Option.bind_some] at hj
    exact hj
  obtain ⟨d, hchild, rfl⟩ := Option.map_eq_some_iff.mp hnext
  refine ⟨d.node, d.names, hj, fun name => ?_, ?_⟩
  · rw [Plan.named_iff, ← h.content hw, Node.content, hchild]
    rfl
  · rw [walk, h.visit_eq hbare hw]
    simp only [hliteral, hchild]

theorem Shows.walk_stop (h : Shows t root plan) (hbare : Plan.IsBare plan)
    (hw : t.locate root pos = some w.node) (hrewind : w.rewind = none) {s : String}
    (hs : plan.reaches (pos ++ [.literal s]) ≠ true) (hd : plan.reaches (pos ++ [.dynamic]) ≠ true)
    (method uri : String) (left : List String) :
    t.walk method uri (s :: left) w = (plan.choose pos (s :: left) method).map fun h =>
      ⟨h, ⟨uri, w.passed, s :: left⟩, w.params, w.middlewares ++ plan.middlewaresAt pos, false⟩ := by
  have hliteral : (t.node w.node).literal? s = none := h.next_eq_none hw hs
  have hdynamic : (t.node w.node).dynamic = none :=
    Option.map_eq_none_iff.mp (h.next_eq_none hw hd)
  rw [walk, h.visit_eq hbare hw]
  simp only [hliteral, hdynamic, h.fallback_eq hw]
  exact settle_of_none
    (w := { w with middlewares := w.middlewares ++ plan.middlewaresAt pos }) hrewind uri (s :: left) _

end Steps

/-- A walk that has come to a position ends where the plan leads from there. -/
theorem Shows.walk_eq (h : Shows t root plan) (hbare : Plan.IsBare plan) (method uri : String)
    (left : List String) {w : Walk H M} (hw : t.locate root pos = some w.node)
    (hrewind : w.rewind = none) :
    ∃ params : PathParams,
      (∀ name, params.get name =
        (plan.bound (Plan.captured pos (plan.follow pos left) left) name).or (w.params.get name)) ∧
      t.walk method uri left w =
        (plan.choose (pos ++ plan.follow pos left) (left.drop (plan.follow pos left).length) method).map
          fun h => ⟨h, ⟨uri, w.passed ++ left.take (plan.follow pos left).length,
            left.drop (plan.follow pos left).length⟩, params,
            w.middlewares ++ plan.around pos (plan.follow pos left), false⟩ := by
  induction left generalizing pos w with
  | nil =>
      refine ⟨w.params, fun name => rfl, ?_⟩
      rw [h.walk_end hbare hw hrewind, Plan.follow, Plan.around_nil]
      simp only [List.append_nil, List.length_nil, List.take_nil, List.drop_nil]
  | cons s left ih =>
      by_cases hs : plan.reaches (pos ++ [.literal s]) = true
      · obtain ⟨j, hj, hwalk⟩ := h.walk_literal hbare hw hs method uri left
        obtain ⟨params, hparams, hrest⟩ := ih (w := { w with
          node := j, passed := w.passed ++ [s],
          middlewares := w.middlewares ++ plan.middlewaresAt pos }) hj hrewind
        rw [Plan.follow, if_pos hs, Plan.around_cons, hwalk, hrest]
        refine ⟨params, hparams, ?_⟩
        simp only [List.append_assoc, List.singleton_append, List.length_cons, List.take_succ_cons,
          List.drop_succ_cons]
      · by_cases hd : plan.reaches (pos ++ [.dynamic]) = true
        · obtain ⟨j, names, hj, hnames, hwalk⟩ := h.walk_dynamic hbare hw hs hd method uri left
          obtain ⟨params, hparams, hrest⟩ := ih (w := { w with
            node := j, passed := w.passed ++ [s],
            params := w.params.addAll names (Percent.decodeSegment s),
            middlewares := w.middlewares ++ plan.middlewaresAt pos }) hj hrewind
          rw [Plan.follow, if_neg hs, if_pos hd, Plan.around_cons, hwalk, hrest]
          refine ⟨params, ?_, ?_⟩
          · intro name
            rw [hparams, PathParams.get_addAll, Plan.captured, Plan.bound, Plan.bound,
              List.find?_append, Option.map_or, Option.or_assoc]
            refine congrArg _ ?_
            by_cases hname : name ∈ names
            · simp [hname, (hnames name).mp hname]
            · have hnamed : ¬plan.named pos name = true := fun h => hname ((hnames name).mpr h)
              simp [hname, hnamed]
          · simp only [List.append_assoc, List.singleton_append, List.length_cons,
              List.take_succ_cons, List.drop_succ_cons]
        · rw [Plan.follow, if_neg hs, if_neg hd, Plan.around_nil, h.walk_stop hbare hw hrewind hs hd]
          refine ⟨w.params, fun name => rfl, ?_⟩
          simp only [List.append_nil, List.length_nil, List.take_zero, List.drop_zero]

end Trie

namespace Router

open Trie

variable {S : Type}

/-- A call that adds to the routes, and adds no router. -/
def Action.IsRoute : Action S → Prop
  | .handle _ _ => False
  | .mount _ h => h.router = none
  | _ => True

theorem Action.IsRoute.isPlain {a : Action S} (h : a.IsRoute) : a.IsPlain := by
  cases a with
  | handle p h' => exact h.elim
  | mount p h' => exact h
  | _ => trivial

theorem isBare_registrations {calls : List (Call S)} (h : ∀ c ∈ calls, c.action.IsRoute)
    (vs : Views Pattern) : (registrations vs calls).IsBare := by
  induction calls generalizing vs with
  | nil =>
      intro r hr
      cases hr
  | cons c calls ih =>
      intro r hr p h' hitem
      rcases List.mem_cons.mp hr with rfl | hr
      · have hc := h c List.mem_cons_self
        simp only [Call.registration] at hitem
        cases haction : c.action with
        | handle p' g =>
            rw [haction] at hc
            exact hc
        | _ =>
            rw [haction] at hitem
            cases hitem
      · exact ih (fun c hc => h c (List.mem_cons_of_mem _ hc)) _ r hr p h' hitem

/-- A request is served by the handler that the plan chooses for it, which gets the segments behind
the position that its path leads to and under each name the deepest value. -/
theorem route_run {t : Routes S} {calls : List (Call S)} {b : Building S}
    (hcalls : ∀ c ∈ calls, c.action.IsRoute) (hb : (Building.fresh t).run calls = some b)
    (routers : NodeId → Service S) (request : Request) :
    let path := request.routing.left
    let steps := (plan calls).follow [] path
    ∃ params : PathParams,
      (∀ name, params.get name = ((plan calls).bound (Plan.captured [] steps path) name).or
        (request.attributes.pathParams.get name)) ∧
      (∀ name, (params.toMap.find? (·.1 == name)).map Prod.snd = params.get name) ∧
      Router.route b.routes routers b.views.router request =
        match (plan calls).choose steps (path.drop steps.length) request.method with
        | none =>
          .log (.debug s!"No route for {request.method} {request.routing.requestUri}")
            (Handler.renderError ⟨.pathNotFound, request.routing.requestUri⟩ request
              request.routing.requestUri)
        | some h =>
          match wrap (h.serve routers) ((plan calls).around [] steps) with
          | .ok s => s { request with attributes := { request.attributes with
              routing := some { request.routing with
                passed := request.routing.passed ++ path.take steps.length
                left := path.drop steps.length }
              params := some params } }
          | .error p => .panic p := by
  intro path steps
  have hplain : ∀ c ∈ calls, c.action.IsPlain := fun c hc => (hcalls c hc).isPlain
  obtain ⟨vs, hbuilt, -, hrouter, -⟩ := built_run hplain hb
  have hroot : b.routes.locate t.size [] = some t.size := rfl
  obtain ⟨params, hparams, hwalk⟩ := hbuilt.draws.toShows.walk_eq
    (isBare_registrations hcalls ⟨[], []⟩) request.method request.routing.requestUri path
    (w := ⟨t.size, request.routing.passed, request.attributes.pathParams, [], none⟩) hroot rfl
  refine ⟨params, hparams, fun name => params.find?_toMap name, ?_⟩
  rw [hrouter, Router.route, Trie.dispatch, hwalk]
  simp only [List.nil_append]
  cases (plan calls).choose ((plan calls).follow [] path)
      (path.drop ((plan calls).follow [] path).length) request.method with
  | none => rfl
  | some h => rfl

/-! A mount in a view of `/users/:user`, where `/users/:id` is a route. -/

def userFiles : Handler Unit :=
  .ofService fun r => .done (.ofBytes 200 "text/plain" (Utf8.encode r.routing.pathLeft))

def userCalls : List (Call Unit) :=
  [⟨0, .on "GET" "/users/:id" (.ofService fun _ => .done (.plain 200))⟩, ⟨0, .sub "users/:user"⟩,
    ⟨1, .mount "files" userFiles⟩]

def userRequest : Request := ⟨"GET", ⟨none, none, "/users/%37/files/x", none⟩, [], [], .empty⟩

theorem route_run_users :
    (∀ c ∈ userCalls, c.action.IsRoute) ∧
      ∃ b, (Building.fresh .empty).run userCalls = some b ∧
        ∀ routers, ∃ params : PathParams, params.get "id" = some "7" ∧ params.get "user" = some "7" ∧
          Router.route b.routes routers b.views.router userRequest =
            userFiles.serve routers { userRequest with attributes := { userRequest.attributes with
              routing := some ⟨"/users/%37/files/x", ["users", "%37", "files"], ["x"]⟩
              params := some params } } := by
  have hcalls : ∀ c ∈ userCalls, c.action.IsRoute := by
    simp [userCalls, userFiles, Action.IsRoute, Handler.ofService]
  obtain ⟨b, hb⟩ : ∃ b, (Building.fresh .empty).run userCalls = some b :=
    Option.isSome_iff_exists.mp (by decide)
  refine ⟨hcalls, b, hb, ?_⟩
  intro routers
  obtain ⟨params, hget, -, hroute⟩ := route_run hcalls hb routers userRequest
  have hrouting : userRequest.routing =
      ⟨"/users/%37/files/x", [], ["users", "%37", "files", "x"]⟩ := by decide
  have hsteps : (plan userCalls).follow [] ["users", "%37", "files", "x"] =
      [.literal "users", .dynamic, .literal "files"] := by decide
  refine ⟨params, ?_, ?_, ?_⟩
  · rw [hget, hrouting]
    decide
  · rw [hget, hrouting]
    decide
  · rw [hroute, hrouting, hsteps]
    rfl

end Router

end WebResource
