import WebResource.Proofs.Contract
import WebResource.Proofs.Router.Dispatch

namespace WebResource

/-!
# Services behind routers

What a router finds for a request has been registered with it, so a service of routers takes only
allowed steps if all handlers and all middlewares do.
-/

/-! ## What a trie holds -/

section Holds

variable {H M : Type} {p : H → Prop} {q : M → Prop}

/-- All that is registered at a node, of whatever kind. -/
structure Node.Holds (p : H → Prop) (q : M → Prop) (n : Node H M) : Prop where
  patterns : ∀ path h, n.patterns.lookup path = some h → p h
  methods : ∀ method h, n.method? method = some h → p h
  fallback : ∀ h, n.fallback = some h → p h
  middlewares : ∀ m ∈ n.middlewares, q m

theorem Node.holds_empty : (Node.empty : Node H M).Holds p q where
  patterns path h hlookup := by simp [Node.empty, Trie.lookup_empty] at hlookup
  methods method h hmethod := by simp [Node.empty, Node.method?] at hmethod
  fallback h hfallback := by simp [Node.empty] at hfallback
  middlewares m hm := by simp [Node.empty] at hm

namespace Trie

variable {t : Trie H M} {i : NodeId}

def Holds (p : H → Prop) (q : M → Prop) (t : Trie H M) : Prop := ∀ i, (t.node i).Holds p q

theorem holds_empty : (Trie.empty : Trie H M).Holds p q := fun _ => Node.holds_empty

theorem Holds.addNode (h : t.Holds p q) : t.addNode.2.Holds p q := by
  intro i
  rw [node_addNode]
  exact h i

theorem Holds.setNode (h : t.Holds p q) {n : Node H M} (hn : n.Holds p q) : (t.setNode i n).Holds p q := by
  intro j
  by_cases hij : i = j
  · subst hij
    by_cases hi : i < t.size
    · rw [node_setNode_self hi]
      exact hn
    · rw [node_of_le (by simpa using hi)]
      exact Node.holds_empty
  · rw [node_setNode_of_ne hij]
    exact h j

theorem Holds.child (h : t.Holds p q) (i : NodeId) (segment : String) :
    (t.child i segment).2.Holds p q := by
  have hn := h i
  unfold Trie.child
  split
  · unfold dynamicChild
    simp only
    split
    · exact h.setNode ⟨hn.patterns, hn.methods, hn.fallback, hn.middlewares⟩
    · exact h.addNode.setNode ⟨hn.patterns, hn.methods, hn.fallback, hn.middlewares⟩
  · unfold literalChild
    simp only
    split
    · exact h
    · exact h.addNode.setNode ⟨hn.patterns, hn.methods, hn.fallback, hn.middlewares⟩

theorem Holds.descend (h : t.Holds p q) (i : NodeId) (segments : List String) :
    (t.descend i segments).2.Holds p q := by
  induction segments generalizing t i with
  | nil => exact h
  | cons s ss ih => exact ih (h.child i s) _

theorem Holds.mount (h : t.Holds p q) (i : NodeId) (path : String) {handler : H} (hp : p handler) :
    (t.mount i path handler).2.Holds p q := by
  have hnodes : (t.nodeAt i path).2.Holds p q := h.descend i (Path.segments path)
  unfold Trie.mount
  generalize t.nodeAt i path = found at hnodes
  obtain ⟨j, t'⟩ := found
  have hn := hnodes j
  simp only
  split
  · exact hnodes
  · refine hnodes.setNode ⟨hn.patterns, hn.methods, ?_, hn.middlewares⟩
    rintro _ ⟨⟩
    exact hp

theorem Holds.addMiddlewares (h : t.Holds p q) (i : NodeId) {ms : List M} (hms : ∀ m ∈ ms, q m) :
    (t.addMiddlewares i ms).Holds p q := by
  have hn := h i
  refine h.setNode ⟨hn.patterns, hn.methods, hn.fallback, fun m hm => ?_⟩
  exact (List.mem_append.mp hm).elim (hn.middlewares m) (hms m)

/-! ## What a walk finds -/

structure Route.Holds (p : H → Prop) (q : M → Prop) (r : Route H M) : Prop where
  handler : p r.handler
  middlewares : ∀ m ∈ r.middlewares, q m

structure Walk.Holds (p : H → Prop) (q : M → Prop) (w : Walk H M) : Prop where
  middlewares : ∀ m ∈ w.middlewares, q m
  rewind : ∀ r, w.rewind = some r → r.Holds p q

theorem Holds.visit (h : t.Holds p q) (uri : String) (left : List String) {w : Walk H M}
    (hw : w.Holds p q) : (t.visit uri left w).Holds p q := by
  have hn := h w.node
  have hmiddlewares : ∀ m ∈ w.middlewares ++ (t.node w.node).middlewares, q m := fun m hm =>
    (List.mem_append.mp hm).elim (hw.middlewares m) (hn.middlewares m)
  unfold Trie.visit
  simp only
  split
  · next handler hlookup =>
      refine ⟨hmiddlewares, ?_⟩
      rintro _ ⟨⟩
      exact ⟨hn.patterns _ _ hlookup, hmiddlewares⟩
  · exact ⟨hmiddlewares, hw.rewind⟩

theorem Walk.Holds.settle {w : Walk H M} (hw : w.Holds p q) (uri : String) (left : List String)
    {found : Option H} (hfound : ∀ h, found = some h → p h) {r : Route H M}
    (hr : Trie.settle uri left w found = some r) : r.Holds p q := by
  cases found with
  | none => exact hw.rewind r hr
  | some handler =>
      cases hr
      exact ⟨hfound handler rfl, hw.middlewares⟩

theorem Holds.walk (h : t.Holds p q) (method uri : String) {left : List String} {w : Walk H M}
    (hw : w.Holds p q) {r : Route H M} (hr : t.walk method uri left w = some r) : r.Holds p q := by
  induction left generalizing w with
  | nil =>
      have hvisit := h.visit uri [] hw
      have hn := h (t.visit uri [] w).node
      rw [Trie.walk] at hr
      refine hvisit.settle uri [] (fun handler hfound => ?_) hr
      rw [Option.orElse_eq_orElse, Option.orElse_eq_or] at hfound
      rcases Option.or_eq_some_iff.mp hfound with hmethod | ⟨-, hfallback⟩
      · exact hn.methods _ _ hmethod
      · exact hn.fallback _ hfallback
  | cons s left ih =>
      have hvisit := h.visit uri (s :: left) hw
      rw [Trie.walk] at hr
      split at hr
      · refine ih ?_ hr
        exact ⟨hvisit.middlewares, hvisit.rewind⟩
      · split at hr
        · refine ih ?_ hr
          exact ⟨hvisit.middlewares, hvisit.rewind⟩
        · exact hvisit.settle uri (s :: left) (h _).fallback hr

/-- What a request is dispatched to is held by the trie. -/
theorem Holds.dispatch (h : t.Holds p q) {root : NodeId} {method : String} {cursor : PathCursor}
    {params : PathParams} {r : Route H M} (hr : t.dispatch root method cursor params = some r) :
    r.Holds p q := by
  have hstart : Walk.Holds p q (⟨root, cursor.passed, params, [], none⟩ : Walk H M) :=
    ⟨by simp, by simp⟩
  exact h.walk method cursor.requestUri hstart hr

end Trie

end Holds

/-! ## Allowed steps -/

section Steps

variable {S : Type} {step : (S → S) → Prop}

/-- A service that takes only allowed steps. -/
def Service.Takes (step : (S → S) → Prop) (s : Service S) : Prop := ∀ request, Prog.Asks step (s request)

/-- A handler that takes only allowed steps if the routers do. -/
def Handler.Takes (step : (S → S) → Prop) (h : Handler S) : Prop :=
  ∀ routers : NodeId → Service S, (∀ i, Service.Takes step (routers i)) → Service.Takes step (h.serve routers)

def Middleware.Takes (step : (S → S) → Prop) (m : Middleware S) : Prop :=
  ∀ s s' : Service S, m s = .ok s' → Service.Takes step s → Service.Takes step s'

namespace Handler

theorem renderError_asks (e : ApiError) (request : Request) (instanceUri : String) :
    Prog.Asks step (renderError e request instanceUri) := by
  unfold renderError
  exact .logs _ (.done _)

theorem recovering_takes {s : Service S} (h : Service.Takes step s) :
    Service.Takes step (recovering s) := by
  intro request
  refine Prog.Asks.bind (h request).attempt fun answer => ?_
  cases answer with
  | ok response => exact .done _
  | error p => exact .log _ (renderError_asks _ _ _)

end Handler

namespace Router

theorem wrap_takes {ms : List (Middleware S)} (hms : ∀ m ∈ ms, Middleware.Takes step m)
    {s s' : Service S} (h : wrap s ms = .ok s') (hs : Service.Takes step s) : Service.Takes step s' := by
  induction ms generalizing s' with
  | nil =>
      cases h
      exact hs
  | cons m ms ih =>
      rw [wrap] at h
      cases hinner : wrap s ms with
      | error p => simp [hinner] at h
      | ok inner =>
          simp only [hinner] at h
          have htakes := ih (fun m hm => hms m (List.mem_cons_of_mem _ hm)) hinner
          exact hms m List.mem_cons_self inner s' h htakes

variable {t : Routes S}

theorem route_takes (ht : t.Holds (Handler.Takes step) (Middleware.Takes step))
    {routers : NodeId → Service S} (hrouters : ∀ i, Service.Takes step (routers i)) (root : NodeId) :
    Service.Takes step (route t routers root) := by
  intro request
  unfold route
  simp only
  split
  · exact .log _ (Handler.renderError_asks _ _ _)
  · next r hr =>
      have hroute := ht.dispatch hr
      split
      · next s hs => exact wrap_takes hroute.middlewares hs (hroute.handler routers hrouters) _
      · exact .panic _

/-- The induction is on the number of routers that a request may still pass through. -/
theorem services_take (ht : t.Holds (Handler.Takes step) (Middleware.Takes step)) (depth : Nat)
    (root : NodeId) : Service.Takes step (services t depth root) := by
  induction depth generalizing root with
  | zero => exact fun _ => .panic _
  | succ depth ih => exact Handler.recovering_takes (route_takes ht ih root)

end Router

theorem Handler.Takes.call {t : Routes S} (ht : t.Holds (Handler.Takes step) (Middleware.Takes step))
    {h : Handler S} (hh : h.Takes step) : Service.Takes step (h.call t) :=
  fun request => hh _ (Router.services_take ht _) request

end Steps

end WebResource
