import WebResource.Proofs.Message.Target
import WebResource.Proofs.Router.Registering

namespace WebResource

/-!
# Falling back to a pattern

A request visits one node after the other, until there is no child for what comes next. If there is no
handler for it where it stops, it is served by the deepest node on its way whose table had a pattern for
what was left of the path there, and all is as it was on arrival at that node.
-/

namespace Trie

variable {H M : Type} {t : Trie H M}

/-- The state of a request when it comes to a node. -/
structure Arrival where
  node : NodeId
  cursor : PathCursor
  params : PathParams
  deriving DecidableEq, Repr

namespace Arrival

/-- The arrival at the child for the next segment. Its names all record the segment if the child is
one that takes any. -/
def next? (t : Trie H M) (a : Arrival) : Option Arrival :=
  match a.cursor.shift with
  | (none, _) => none
  | (some s, cursor) =>
    match (t.node a.node).literal? s with
    | some j => some ⟨j, cursor, a.params⟩
    | none => (t.node a.node).dynamic.map fun d =>
      ⟨d.node, cursor, a.params.addAll d.names (Percent.decodeSegment s)⟩

/-- The handler of a request that stops here. -/
def stop? (t : Trie H M) (method : String) (a : Arrival) : Option H :=
  if a.cursor.isExhausted then ((t.node a.node).method? method).or (t.node a.node).fallback
  else (t.node a.node).fallback

/-- The handler that the table of the node has for the path that is left. -/
def pattern? (t : Trie H M) (a : Arrival) : Option H :=
  (t.node a.node).patterns.lookup a.cursor.pathLeft

def middlewares (t : Trie H M) (a : Arrival) : List M := (t.node a.node).middlewares

/-- The route to a handler from here, with the middlewares up to here around it. -/
def route (t : Trie H M) (a : Arrival) (rewound : Bool) (before : List M) (h : H) : Route H M :=
  ⟨h, a.cursor, a.params, before ++ a.middlewares t, rewound⟩

/-- The state of a walk that has come here. -/
def walk (a : Arrival) (before : List M) (rewind : Option (Route H M)) : Walk H M :=
  ⟨a.node, a.cursor.passed, a.params, before, rewind⟩

end Arrival

/-- All arrivals of a request from one on, up to the one where it stops. -/
inductive Tour (t : Trie H M) : Arrival → List Arrival → Prop where
  | stop {a : Arrival} (h : a.next? t = none) : t.Tour a [a]
  | go {a b : Arrival} {more : List Arrival} (h : a.next? t = some b) (hmore : t.Tour b more) :
      t.Tour a (a :: more)

/-- The handler for a request where a tour stops. -/
def found? (t : Trie H M) (method : String) (tour : List Arrival) : Option H :=
  tour.getLast?.bind (·.stop? t method)

/-- The last arrival of a tour at a node with a pattern, and what comes before it. -/
structure Deepest (t : Trie H M) (tour before : List Arrival) (a : Arrival) (h : H) : Prop where
  pattern : a.pattern? t = some h
  last : ∃ after, tour = before ++ a :: after ∧ ∀ b ∈ after, b.pattern? t = none

/-! ## Tours -/

theorem Arrival.left_of_next? {a b : Arrival} (h : a.next? t = some b) :
    ∃ s, a.cursor.left = s :: b.cursor.left := by
  obtain ⟨node, ⟨uri, passed, left⟩, params⟩ := a
  cases left with
  | nil => cases h
  | cons s left =>
      refine ⟨s, ?_⟩
      simp only [next?, PathCursor.shift] at h
      split at h
      · cases h
        rfl
      · obtain ⟨d, -, rfl⟩ := Option.map_eq_some_iff.mp h
        rfl

theorem exists_tour (t : Trie H M) (a : Arrival) : ∃ tour, t.Tour a tour := by
  induction hleft : a.cursor.left generalizing a with
  | nil =>
      refine ⟨[a], .stop ?_⟩
      rw [Arrival.next?, PathCursor.shift, hleft]
  | cons s left ih =>
      cases hnext : a.next? t with
      | none => exact ⟨[a], .stop hnext⟩
      | some b =>
          obtain ⟨s', hs⟩ := Arrival.left_of_next? hnext
          cases hleft.symm.trans hs
          obtain ⟨tour, htour⟩ := ih b rfl
          exact ⟨a :: tour, .go hnext htour⟩

theorem Tour.eq_of_tour {a : Arrival} {tour other : List Arrival} (h : t.Tour a tour)
    (hother : t.Tour a other) : tour = other := by
  induction h generalizing other with
  | stop h =>
      cases hother with
      | stop => rfl
      | go h' => exact absurd (h.symm.trans h') (by simp)
  | go h _ ih =>
      cases hother with
      | stop h' => exact absurd (h.symm.trans h') (by simp)
      | go h' hmore =>
          cases h.symm.trans h'
          rw [ih hmore]

theorem Deepest.mem {tour before : List Arrival} {a : Arrival} {h : H}
    (hdeepest : t.Deepest tour before a h) : a ∈ tour := by
  obtain ⟨-, after, rfl, -⟩ := hdeepest
  exact List.mem_append_right _ List.mem_cons_self

theorem Deepest.unique {tour before before' : List Arrival} {a a' : Arrival} {h h' : H}
    (hdeepest : t.Deepest tour before a h) (hother : t.Deepest tour before' a' h') :
    before = before' ∧ a = a' ∧ h = h' := by
  obtain ⟨ha, after, rfl, hafter⟩ := hdeepest
  obtain ⟨ha', after', heq, hafter'⟩ := hother
  -- Where two splits differ, the later arrival comes after the earlier one, but has a pattern.
  obtain ⟨between, rfl, hsplit⟩ | ⟨between, rfl, hsplit⟩ := List.append_eq_append_iff.mp heq
  · cases between with
    | nil =>
        cases hsplit
        exact ⟨(List.append_nil _).symm, rfl, Option.some.inj (ha.symm.trans ha')⟩
    | cons c between =>
        cases hsplit
        cases ha'.symm.trans (hafter _ (List.mem_append_right _ List.mem_cons_self))
  · cases between with
    | nil =>
        cases hsplit
        exact ⟨List.append_nil _, rfl, Option.some.inj (ha.symm.trans ha')⟩
    | cons c between =>
        cases hsplit
        cases ha.symm.trans (hafter' _ (List.mem_append_right _ List.mem_cons_self))

theorem no_pattern_or_deepest (t : Trie H M) (tour : List Arrival) :
    (∀ a ∈ tour, a.pattern? t = none) ∨ ∃ before a h, t.Deepest tour before a h := by
  induction tour with
  | nil => exact .inl fun a ha => absurd ha List.not_mem_nil
  | cons a tour ih =>
      obtain hnone | ⟨before, b, h, hpattern, after, rfl, hafter⟩ := ih
      · cases ha : a.pattern? t with
        | none => exact .inl (List.forall_mem_cons.mpr ⟨ha, hnone⟩)
        | some h => exact .inr ⟨[], a, h, ha, tour, rfl, hnone⟩
      · exact .inr ⟨a :: before, b, h, hpattern, after, rfl, hafter⟩

/-! ## Walks -/

section Walks

variable {a : Arrival} (method : String) (before : List M) (rewind : Option (Route H M))

theorem visit_arrival : t.visit a.cursor.requestUri a.cursor.left (a.walk before rewind) =
    a.walk (before ++ a.middlewares t) (((a.pattern? t).map (a.route t true before)).or rewind) := by
  cases hpattern : a.pattern? t with
  | none =>
      have hlookup : (t.node a.node).patterns.lookup a.cursor.pathLeft = none := hpattern
      simp only [visit, Arrival.walk, hlookup]
      rfl
  | some h =>
      have hlookup : (t.node a.node).patterns.lookup a.cursor.pathLeft = some h := hpattern
      simp only [visit, Arrival.walk, hlookup]
      rfl

theorem settle_arrival (found : Option H) :
    settle a.cursor.requestUri a.cursor.left (a.walk (before ++ a.middlewares t) rewind) found =
      (found.map (a.route t false before)).or rewind := by
  cases found <;> rfl

/-- A walk goes on at the next node, with the pattern of this one to come back to. If there is no
next one, it is served here or by the last pattern. -/
theorem walk_arrival : t.walk method a.cursor.requestUri a.cursor.left (a.walk before rewind) =
    match a.next? t with
    | some b => t.walk method b.cursor.requestUri b.cursor.left (b.walk (before ++ a.middlewares t)
        (((a.pattern? t).map (a.route t true before)).or rewind))
    | none => ((a.stop? t method).map (a.route t false before)).or
        (((a.pattern? t).map (a.route t true before)).or rewind) := by
  rw [← settle_arrival]
  have hvisit := visit_arrival (t := t) (a := a) before rewind
  obtain ⟨node, ⟨uri, passed, left⟩, params⟩ := a
  cases left with
  | nil =>
      rw [walk, hvisit]
      exact congrArg _ Option.orElse_eq_or
  | cons s left =>
      rw [walk, hvisit]
      simp only [Arrival.next?, PathCursor.shift, Arrival.walk]
      cases (t.node node).literal? s with
      | some j => rfl
      | none => cases (t.node node).dynamic <;> rfl

end Walks

theorem found?_singleton (t : Trie H M) (method : String) (a : Arrival) :
    t.found? method [a] = a.stop? t method := rfl

namespace Tour

variable {a b : Arrival} {tour passed : List Arrival} {method : String} {g : H}

theorem found?_cons (h : t.Tour b tour) (method : String) (a : Arrival) :
    t.found? method (a :: tour) = t.found? method tour := by
  cases h <;> rw [found?, List.getLast?_cons_cons, found?]

/-- If there is a handler where it stops, a request is served there. -/
theorem walk_of_found (h : t.Tour a tour) (hfound : t.found? method tour = some g)
    (before : List M) (rewind : Option (Route H M)) :
    ∃ passed b, tour = passed ++ [b] ∧
      t.walk method a.cursor.requestUri a.cursor.left (a.walk before rewind) =
        some (b.route t false (before ++ passed.flatMap (·.middlewares t)) g) := by
  induction h generalizing before rewind with
  | @stop a hstop =>
      rw [found?_singleton] at hfound
      refine ⟨[], a, rfl, ?_⟩
      rw [walk_arrival, hstop]
      simp only [hfound, Option.map_some, Option.some_or, List.flatMap_nil, List.append_nil]
  | @go a _ _ hnext hmore ih =>
      rw [hmore.found?_cons] at hfound
      obtain ⟨passed, b, rfl, hwalk⟩ := ih hfound (before ++ a.middlewares t)
        (((a.pattern? t).map (a.route t true before)).or rewind)
      refine ⟨a :: passed, b, rfl, ?_⟩
      rw [walk_arrival, hnext]
      simp only [hwalk, List.flatMap_cons, List.append_assoc]

/-- If there is none, and no pattern either, a request is left to what was there before. -/
theorem walk_of_no_pattern (h : t.Tour a tour) (hfound : t.found? method tour = none)
    (hpattern : ∀ b ∈ tour, b.pattern? t = none) (before : List M) (rewind : Option (Route H M)) :
    t.walk method a.cursor.requestUri a.cursor.left (a.walk before rewind) = rewind := by
  induction h generalizing before with
  | stop hstop =>
      rw [found?_singleton] at hfound
      rw [walk_arrival, hstop]
      simp only [hfound, hpattern _ List.mem_cons_self, Option.map_none, Option.none_or]
  | go hnext hmore ih =>
      obtain ⟨ha, hpattern⟩ := List.forall_mem_cons.mp hpattern
      rw [hmore.found?_cons] at hfound
      rw [walk_arrival, hnext]
      simp only [ha, Option.map_none, Option.none_or]
      exact ih hfound hpattern _

/-- If there is none, but a pattern, a request is served by the last one. -/
theorem walk_of_deepest (h : t.Tour a tour) (hfound : t.found? method tour = none)
    (hdeepest : t.Deepest tour passed b g) (before : List M) (rewind : Option (Route H M)) :
    t.walk method a.cursor.requestUri a.cursor.left (a.walk before rewind) =
      some (b.route t true (before ++ passed.flatMap (·.middlewares t)) g) := by
  obtain ⟨hb, after, htour, hafter⟩ := hdeepest
  induction h generalizing before rewind passed with
  | stop hstop =>
      rw [found?_singleton] at hfound
      obtain ⟨rfl, ha⟩ := List.append_eq_singleton_iff.mp htour.symm |>.resolve_right (by simp)
      cases ha
      rw [walk_arrival, hstop]
      simp only [hfound, hb, Option.map_none, Option.none_or, Option.map_some, Option.some_or,
        List.flatMap_nil, List.append_nil]
  | go hnext hmore ih =>
      rw [hmore.found?_cons] at hfound
      rw [walk_arrival, hnext]
      cases passed with
      | nil =>
          cases htour
          simp only [hmore.walk_of_no_pattern hfound hafter, hb, Option.map_some, Option.some_or,
            List.flatMap_nil, List.append_nil]
      | cons c passed =>
          cases htour
          simp only [ih hfound _ _ rfl, List.flatMap_cons, List.append_assoc]

section Dispatch

variable {root : NodeId} {cursor : PathCursor} {params : PathParams} {r : Route H M}

theorem dispatch_eq (t : Trie H M) (root : NodeId) (method : String) (cursor : PathCursor)
    (params : PathParams) : t.dispatch root method cursor params =
      t.walk method cursor.requestUri cursor.left
        ((⟨root, cursor, params⟩ : Arrival).walk [] none) := rfl

/-- A request is served where it stops, or by the deepest pattern if it finds no handler there. -/
theorem dispatch_eq_some_iff (h : t.Tour ⟨root, cursor, params⟩ tour) :
    t.dispatch root method cursor params = some r ↔
      (∃ passed a g, tour = passed ++ [a] ∧ t.found? method tour = some g ∧
        r = a.route t false (passed.flatMap (·.middlewares t)) g) ∨
      (t.found? method tour = none ∧ ∃ passed a g, t.Deepest tour passed a g ∧
        r = a.route t true (passed.flatMap (·.middlewares t)) g) := by
  rw [dispatch_eq]
  cases hfound : t.found? method tour with
  | some g =>
      obtain ⟨passed, a, rfl, hwalk⟩ := h.walk_of_found hfound [] none
      rw [hwalk]
      constructor
      · rintro ⟨rfl⟩
        exact .inl ⟨passed, a, g, rfl, rfl, rfl⟩
      · rintro (⟨passed', a', g', hsplit, ⟨rfl⟩, rfl⟩ | ⟨hnone, -⟩)
        · obtain ⟨rfl, ha⟩ := List.append_inj' hsplit rfl
          cases ha
          rfl
        · cases hnone
  | none =>
      constructor
      · intro hr
        obtain hpattern | ⟨passed, a, g, hdeepest⟩ := t.no_pattern_or_deepest tour
        · cases hr.symm.trans (h.walk_of_no_pattern hfound hpattern [] none)
        · cases hr.symm.trans (h.walk_of_deepest hfound hdeepest [] none)
          exact .inr ⟨rfl, passed, a, g, hdeepest, rfl⟩
      · rintro (⟨_, _, _, _, hsome, _⟩ | ⟨-, passed, a, g, hdeepest, rfl⟩)
        · cases hsome
        · exact h.walk_of_deepest hfound hdeepest [] none

end Dispatch

theorem left_suffix (h : t.Tour a tour) (hb : b ∈ tour) : b.cursor.left <:+ a.cursor.left := by
  induction h with
  | stop =>
      rw [List.mem_singleton.mp hb]
  | go hnext hmore ih =>
      obtain rfl | hb := List.mem_cons.mp hb
      · exact List.suffix_refl _
      · obtain ⟨s, hs⟩ := Arrival.left_of_next? hnext
        rw [hs]
        exact (ih hb).trans (List.suffix_cons s _)

end Tour

end Trie

namespace Router

open Trie

variable {S : Type}

theorem pathLeft_chars {cursor : PathCursor}
    (h : ∀ s ∈ cursor.left, ∀ c ∈ s.toList, Uri.isPathChar c = true) :
    ∀ c ∈ cursor.pathLeft.toList, Uri.isPathChar c = true := by
  intro c hc
  obtain rfl | ⟨s, hs, hc⟩ := Path.mem_of_mem_render hc
  · decide
  · exact h s hs c hc

theorem head?_pathLeft (cursor : PathCursor) : cursor.pathLeft.toList.head? = some '/' := by
  rw [PathCursor.pathLeft, Path.render, String.toList_ofList, List.head?_cons]

theorem path_of_pathLeft (uri : Uri) (cursor : PathCursor) :
    Uri.path { uri with rawPath := cursor.pathLeft } = cursor.pathLeft := by
  refine if_neg fun hempty : cursor.pathLeft = "" => ?_
  have hhead := head?_pathLeft cursor
  rw [hempty] at hhead
  cases hhead

/-- A request that is rewound has the path that was left, and all else that it had there. -/
theorem Route.request_rewound {t : Routes S} {request : Request} (h : request.Routable) {a : Arrival}
    (hleft : a.cursor.left <:+ request.routing.left) (before : List (Middleware S)) (g : Handler S) :
    Route.request (a.route t true before g) request = { request with
      uri := { request.uri with rawPath := a.cursor.pathLeft }
      attributes := { request.attributes with routing := some a.cursor, params := some a.params } } := by
  have hchars := pathLeft_chars fun s hs => h.left s (hleft.subset hs)
  simp only [Route.request, Arrival.route, if_true, Uri.withPath_eq h.sound h.form hchars,
    Option.getD_some]

/-- A request that is served by a pattern finds no handler where it stops. The handler is that of the
deepest pattern on its way. It gets the request as it was on arrival there, with the path that was
left, and has only the middlewares of the nodes down to there around it. -/
theorem route_rewinds (t : Routes S) (routers : NodeId → Service S) (root : NodeId)
    {request : Request} (hrequest : request.Routable) :
    ∃ tour, t.Tour ⟨root, request.routing, request.attributes.pathParams⟩ tour ∧
      ∀ r, t.dispatch root request.method request.routing request.attributes.pathParams = some r →
        r.rewound = true →
          t.found? request.method tour = none ∧ ∃ passed a, t.Deepest tour passed a r.handler ∧
            ∃ uri : Uri, uri.path = a.cursor.pathLeft ∧ uri.query = request.uri.query ∧
              uri.scheme = request.uri.scheme ∧ uri.authority = request.uri.authority ∧
              Router.route t routers root request =
                match wrap (r.handler.serve routers)
                  ((passed ++ [a]).flatMap (·.middlewares t)) with
                | .ok s => s { request with
                    uri := uri
                    attributes := { request.attributes with
                      routing := some a.cursor, params := some a.params } }
                | .error p => .panic p := by
  obtain ⟨tour, htour⟩ := t.exists_tour ⟨root, request.routing, request.attributes.pathParams⟩
  refine ⟨tour, htour, fun r hr hrewound => ?_⟩
  obtain ⟨_, _, _, -, -, rfl⟩ | ⟨hfound, passed, a, g, hdeepest, rfl⟩ :=
    htour.dispatch_eq_some_iff.mp hr
  · cases hrewound
  refine ⟨hfound, passed, a, hdeepest, { request.uri with rawPath := a.cursor.pathLeft },
    path_of_pathLeft _ _, rfl, rfl, rfl, ?_⟩
  have hmiddlewares : (a.route t true (passed.flatMap (·.middlewares t)) g).middlewares =
      (passed ++ [a]).flatMap (·.middlewares t) := by
    rw [List.flatMap_append, List.flatMap_singleton, Arrival.route]
  rw [Router.route, hr, ← hmiddlewares]
  dsimp only
  generalize wrap _ _ = wrapped
  cases wrapped with
  | ok s => exact congrArg s (Route.request_rewound hrequest (htour.left_suffix hdeepest.mem) _ g)
  | error p => rfl

/-! Notes are kept by user. A view below them, where middlewares panic and no pattern matches, is
passed on the way to a route that is not there. -/

def notes : Handler Unit :=
  .ofService fun r => .done (.ofBytes 200 "text/plain" (Utf8.encode r.path))

def noting : Middleware Unit := fun s => .ok fun r => .log (.debug "notes") (s r)

def noteCalls : List (Call Unit) :=
  [⟨0, .handle "/" (.ofService fun _ => .done (.plain 200))⟩, ⟨0, .sub "/users/:id"⟩,
    ⟨1, .use [noting]⟩, ⟨1, .handle "/notes/" notes⟩, ⟨1, .sub "notes/:note"⟩,
    ⟨2, .use [fun _ => .error (.text "too deep")]⟩,
    ⟨2, .handle "/old/" (.ofService fun _ => .done (.plain 404))⟩]

def noteRequest : Request :=
  ⟨"GET", ⟨none, none, "/users/7/notes/x/y/", some "q=1"⟩, [], [], .empty⟩

def noteBuilding : Building Unit :=
  ((Building.fresh .empty).run noteCalls).getD (.fresh .empty)

theorem run_noteCalls : (Building.fresh .empty).run noteCalls = some noteBuilding := by
  obtain ⟨b, hb⟩ : ∃ b, (Building.fresh .empty).run noteCalls = some b :=
    Option.isSome_iff_exists.mp (by decide)
  rw [noteBuilding, hb, Option.getD_some]

/-- The request on arrival at the node that all users share. -/
def noteArrival : Arrival :=
  ⟨2, ⟨"/users/7/notes/x/y/", ["users", "7"], ["notes", "x", "y"]⟩, ⟨[("id", "7")]⟩⟩

def noteTour : List Arrival :=
  let uri := "/users/7/notes/x/y/"
  [⟨0, ⟨uri, [], ["users", "7", "notes", "x", "y"]⟩, .empty⟩,
    ⟨1, ⟨uri, ["users"], ["7", "notes", "x", "y"]⟩, .empty⟩,
    noteArrival,
    ⟨3, ⟨uri, ["users", "7", "notes"], ["x", "y"]⟩, ⟨[("id", "7")]⟩⟩,
    ⟨4, ⟨uri, ["users", "7", "notes", "x"], ["y"]⟩, ⟨[("note", "x"), ("id", "7")]⟩⟩]

theorem tour_noteRequest : noteBuilding.routes.Tour ⟨0, noteRequest.routing, .empty⟩ noteTour :=
  .go (by decide) (.go (by decide) (.go (by decide) (.go (by decide) (.stop (by decide)))))

theorem deepest_noteTour : noteBuilding.routes.Deepest noteTour (noteTour.take 2) noteArrival notes :=
  ⟨rfl, noteTour.drop 3, rfl, by decide⟩

theorem routable_noteRequest : noteRequest.Routable :=
  Request.routable_of_fresh (Uri.isSound_of_parse (s := "/users/7/notes/x/y/?q=1") (by decide))
    (.inl ⟨rfl, rfl, by decide⟩) rfl

theorem route_rewinds_notes :
    noteRequest.Routable ∧ (Building.fresh .empty).run noteCalls = some noteBuilding ∧
      ∀ routers, ∃ uri : Uri, uri.path = "/notes/x/y" ∧ uri.query = some "q=1" ∧
        Router.route noteBuilding.routes routers noteBuilding.views.router noteRequest =
          .log (.debug "notes") (notes.serve routers { noteRequest with
            uri := uri
            attributes := { noteRequest.attributes with
              routing := some noteArrival.cursor, params := some ⟨[("id", "7")]⟩ } }) := by
  refine ⟨routable_noteRequest, run_noteCalls, fun routers => ?_⟩
  have hrewound : (noteBuilding.routes.dispatch 0 "GET" noteRequest.routing .empty).map
      Trie.Route.rewound = some true := by decide
  obtain ⟨r, hr, hrewound⟩ := Option.map_eq_some_iff.mp hrewound
  obtain ⟨tour, htour, hserved⟩ := route_rewinds noteBuilding.routes routers 0 routable_noteRequest
  obtain ⟨-, passed, a, hdeepest, uri, hpath, hquery, -, -, hroute⟩ := hserved r hr hrewound
  rw [htour.eq_of_tour tour_noteRequest] at hdeepest
  obtain ⟨rfl, rfl, hnotes⟩ := hdeepest.unique deepest_noteTour
  rw [hnotes] at hroute
  exact ⟨uri, hpath.trans (by decide), hquery, hroute⟩

end Router

end WebResource
