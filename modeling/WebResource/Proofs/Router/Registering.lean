import WebResource.Proofs.Router.Shape

namespace WebResource

/-!
# Building a router

Calls on a router and on views of it, and the plan that they amount to. As long as no call panics,
the nodes below the router are a tree that holds what the plan says.
-/

/-- A router, and the views that were taken of it or of its views, in their order. -/
structure Views (α : Type) where
  router : α
  taken : List α

namespace Views

variable {α β : Type}

/-- The view with a number. Zero is the router itself, as is a number without a view. -/
def get (vs : Views α) (v : Nat) : α := (vs.router :: vs.taken)[v]?.getD vs.router

def extend (vs : Views α) (more : Option α) : Views α := { vs with taken := vs.taken ++ more.toList }

def map (f : α → β) (vs : Views α) : Views β := ⟨f vs.router, vs.taken.map f⟩

/-- Views that correspond one by one. -/
structure Agree (R : α → β → Prop) (vs : Views α) (ws : Views β) : Prop where
  router : R vs.router ws.router
  taken : List.Forall₂ R vs.taken ws.taken

variable {R R' : α → β → Prop} {vs : Views α} {ws : Views β}

theorem get_map (f : α → β) (vs : Views α) (v : Nat) : (vs.map f).get v = f (vs.get v) := by
  have hmap : f vs.router :: vs.taken.map f = (vs.router :: vs.taken).map f := rfl
  rw [get, map, get, hmap, List.getElem?_map, Option.getD_map]

theorem extend_map (f : α → β) (vs : Views α) (more : Option α) :
    (vs.extend more).map f = (vs.map f).extend (more.map f) := by
  cases more <;> simp [extend, map]

theorem Agree.get (h : Agree R vs ws) (v : Nat) : R (vs.get v) (ws.get v) := by
  have hall : List.Forall₂ R (vs.router :: vs.taken) (ws.router :: ws.taken) := .cons h.router h.taken
  have hlength := hall.length_eq
  by_cases hv : v < (vs.router :: vs.taken).length
  · rw [Views.get, Views.get, List.getElem?_eq_getElem hv, List.getElem?_eq_getElem (hlength ▸ hv)]
    exact hall.get hv (hlength ▸ hv)
  · have hv' : (ws.router :: ws.taken).length ≤ v := hlength ▸ Nat.le_of_not_lt hv
    rw [Views.get, Views.get, List.getElem?_eq_none (Nat.le_of_not_lt hv), List.getElem?_eq_none hv']
    exact h.router

theorem Agree.mono (h : Agree R vs ws) (hR : ∀ a b, R a b → R' a b) : Agree R' vs ws :=
  ⟨hR _ _ h.router, h.taken.imp hR⟩

theorem Agree.extend (h : Agree R vs ws) {a : α} {b : β} (hab : R a b) :
    Agree R (vs.extend (some a)) (ws.extend (some b)) :=
  ⟨h.router, List.rel_append h.taken (.cons hab .nil)⟩

theorem extend_none (vs : Views α) : vs.extend none = vs := by
  simp [extend]

end Views

namespace Router

open Trie

variable {S : Type}

/-! ## Calls -/

/-- What is called on a router or a view. -/
inductive Action (S : Type) where
  | on (method path : String) (h : Handler S)
  | mount (path : String) (h : Handler S)
  | handle (pattern : String) (h : Handler S)
  | use (ms : List (Middleware S))
  | sub (path : String)

/-- A call on a view. A block that runs with a view of its own is a call that takes the view and
then the calls of the block. -/
structure Call (S : Type) where
  view : Nat
  action : Action S

namespace Action

/-- The path of the node that is changed, below the view. -/
def path : Action S → String
  | .on _ path _ => path
  | .mount path _ => path
  | .handle _ _ => ""
  | .use _ => ""
  | .sub path => path

def item : Action S → Item (Handler S) (Middleware S)
  | .on method _ h => .method method h
  | .mount _ h => .mount h
  | .handle pattern h => .pattern pattern h
  | .use ms => .middlewares ms
  | .sub _ => .view

/-- No router is registered below another. -/
def IsPlain : Action S → Prop
  | .mount _ h => h.router = none
  | .handle _ h => h.router = none
  | _ => True

def run (t : Routes S) (i : NodeId) : Action S → Registered S
  | .on method path h => Router.on t i method path h
  | .mount path h => Router.mount t i path h
  | .handle pattern h => Router.handle t i pattern h
  | .use ms => (.done, t.addMiddlewares i ms)
  | .sub path => (.done, (t.nodeAt i path).2)

/-- The view that a call gives, if it gives one, where `target` is the view of its path. -/
def given {α : Type} (target : α) : Action S → Option α
  | .sub _ => some target
  | _ => none

end Action

/-- A trie and the views of one of its routers. -/
structure Building (S : Type) where
  routes : Routes S
  views : Views NodeId

namespace Building

/-- A new router in a trie that may hold others. -/
def fresh (t : Routes S) : Building S := ⟨t.addNode.2, ⟨t.addNode.1, []⟩⟩

/-- One call, unless it panics. -/
def call (b : Building S) (c : Call S) : Option (Building S) :=
  let i := b.views.get c.view
  match c.action.run b.routes i with
  | (.done, t) => some ⟨t, b.views.extend (c.action.given (b.routes.nodeAt i c.action.path).1)⟩
  | _ => none

/-- Calls one after the other, unless one of them panics. -/
def run (b : Building S) : List (Call S) → Option (Building S)
  | [] => some b
  | c :: calls => (b.call c).bind fun b => b.run calls

end Building

namespace Call

/-- The pattern of the node that is changed. -/
def pattern (vs : Views Pattern) (c : Call S) : Pattern :=
  vs.get c.view ++ Pattern.ofPath c.action.path

def registration (vs : Views Pattern) (c : Call S) : Registration (Handler S) (Middleware S) :=
  ⟨c.pattern vs, c.action.item⟩

def views (vs : Views Pattern) (c : Call S) : Views Pattern :=
  vs.extend (c.action.given (c.pattern vs))

end Call

/-- What calls register, given the patterns of the views that there are. -/
def registrations (vs : Views Pattern) : List (Call S) → Plan (Handler S) (Middleware S)
  | [] => []
  | c :: calls => c.registration vs :: registrations (c.views vs) calls

/-- The plan of a new router. -/
def plan (calls : List (Call S)) : Plan (Handler S) (Middleware S) := registrations ⟨[], []⟩ calls

/-- Calls on a view of a pattern register what they would register with a router, below the pattern. -/
theorem registrations_below (p : Pattern) (vs : Views Pattern) (calls : List (Call S)) :
    registrations (vs.map (p ++ ·)) calls = (registrations vs calls).map (Registration.below p) := by
  induction calls generalizing vs with
  | nil => rfl
  | cons c calls ih =>
      have hpattern : c.pattern (vs.map (p ++ ·)) = p ++ c.pattern vs := by
        rw [Call.pattern, Views.get_map, List.append_assoc]
        rfl
      have hviews : c.views (vs.map (p ++ ·)) = (c.views vs).map (p ++ ·) := by
        rw [Call.views, Call.views, Views.extend_map, hpattern]
        cases c.action <;> rfl
      rw [registrations, hviews, ih, registrations, List.map_cons, Call.registration, hpattern]
      rfl

/-! ## One call -/

theorem segments_empty : Path.segments "" = [] := by decide

theorem nodeAt_empty (t : Routes S) (i : NodeId) : t.nodeAt i "" = (i, t) := by
  rw [nodeAt, segments_empty]
  rfl

/-- How an action goes, given the node that it changes and the trie that has the node. -/
structure Performs (a : Action S) (r : NodeId × Routes S) (result : Registered S) : Prop where
  clash : (r.2.node r.1).content.Clashes a.item.content → ∃ e, result = (.clash e, r.2)
  done : ¬(r.2.node r.1).content.Clashes a.item.content →
    ∃ n, result = (.done, r.2.setNode r.1 n) ∧ n.literals = (r.2.node r.1).literals ∧
      n.dynamic = (r.2.node r.1).dynamic ∧
      n.content = (r.2.node r.1).content.append a.item.content

theorem performs_of_iff {a : Action S} {r : NodeId × Routes S} {taken : Bool} {e : RouteTaken}
    {n : Node (Handler S) (Middleware S)}
    (htaken : taken = true ↔ (r.2.node r.1).content.Clashes a.item.content)
    (hliterals : n.literals = (r.2.node r.1).literals) (hdynamic : n.dynamic = (r.2.node r.1).dynamic)
    (hcontent : n.content = (r.2.node r.1).content.append a.item.content) :
    Performs a r (if taken then (.clash e, r.2) else (.done, r.2.setNode r.1 n)) := by
  constructor
  · intro hclash
    rw [if_pos (htaken.mpr hclash)]
    exact ⟨e, rfl⟩
  · intro hclash
    rw [if_neg fun h => hclash (htaken.mp h)]
    exact ⟨n, rfl, hliterals, hdynamic, hcontent⟩

section Performs

variable (t : Routes S) (i : NodeId)

theorem performs_on (method path : String) (h : Handler S) :
    Performs (.on method path h) (t.nodeAt i path) ((Action.on method path h).run t i) := by
  have hrun : (Action.on method path h).run t i =
      if ((t.nodeAt i path).2.node (t.nodeAt i path).1 |>.method? method).isSome then
        (.clash (.methodAt method (Path.clean path)), (t.nodeAt i path).2)
      else (.done, (t.nodeAt i path).2.setNode (t.nodeAt i path).1
        { (t.nodeAt i path).2.node (t.nodeAt i path).1 with
          methods := ((t.nodeAt i path).2.node (t.nodeAt i path).1).methods ++ [(method, h)] }) := by
    simp only [Action.run, Router.on, Trie.on]
    split <;> rfl
  rw [hrun]
  apply performs_of_iff
  · rw [isSome_method?]
    simp [Content.Clashes, Action.item, Item.content, Content.empty, Node.content]
  · rfl
  · rfl
  · simp [Content.append, Action.item, Item.content, Content.empty, Node.content, addNames]

theorem performs_mount (path : String) {h : Handler S} (hrouter : h.router = none) :
    Performs (.mount path h) (t.nodeAt i path) ((Action.mount path h).run t i) := by
  have hrun : (Action.mount path h).run t i =
      if ((t.nodeAt i path).2.node (t.nodeAt i path).1).fallback.isSome then
        (.clash (.mount path), (t.nodeAt i path).2)
      else (.done, (t.nodeAt i path).2.setNode (t.nodeAt i path).1
        { (t.nodeAt i path).2.node (t.nodeAt i path).1 with fallback := some h }) := by
    simp only [Action.run, Router.mount, hrouter, Trie.mount]
    split <;> rfl
  rw [hrun]
  cases hfallback : ((t.nodeAt i path).2.node (t.nodeAt i path).1).fallback with
  | none =>
      apply performs_of_iff
      · simp [Content.Clashes, Action.item, Item.content, Content.empty, Node.content, hfallback]
      · rfl
      · rfl
      · simp [Content.append, Action.item, Item.content, Content.empty, Node.content, addNames,
          hfallback]
  | some g =>
      constructor
      · intro _
        exact ⟨_, rfl⟩
      · intro hclash
        refine absurd (Or.inr (Or.inl ⟨?_, rfl⟩)) hclash
        simp [Node.content, hfallback]

theorem performs_handle (pattern : String) {h : Handler S} (hrouter : h.router = none) :
    Performs (.handle pattern h) (i, t) ((Action.handle pattern h).run t i) := by
  have hrun : (Action.handle pattern h).run t i =
      if (t.node i).patterns.has (PatternTable.rooted pattern) then
        (.clash (.pattern ⟨PatternTable.rooted pattern⟩), t)
      else (.done, t.setNode i { t.node i with
        patterns := ⟨(t.node i).patterns.entries ++ [(PatternTable.rooted pattern, h)]⟩ }) := by
    simp only [Action.run, Router.handle, hrouter, Trie.handle, PatternTable.handle,
      PatternTable.insert]
    cases (t.node i).patterns.has (PatternTable.rooted pattern) <;> rfl
  rw [hrun]
  apply performs_of_iff
  · rw [PatternTable.has_iff]
    simp [Content.Clashes, Action.item, Item.content, Content.empty, Node.content]
  · rfl
  · rfl
  · simp [Content.append, Action.item, Item.content, Content.empty, Node.content, addNames]

theorem performs_use (ms : List (Middleware S)) :
    Performs (.use ms) (i, t) ((Action.use ms).run t i) := by
  constructor
  · intro hclash
    simp [Content.Clashes, Action.item, Item.content] at hclash
  · intro _
    refine ⟨_, rfl, rfl, rfl, ?_⟩
    simp [Content.append, Action.item, Item.content, Node.content, addNames]

theorem performs_sub (path : String) :
    Performs (.sub path) (t.nodeAt i path) ((Action.sub path).run t i) := by
  constructor
  · intro hclash
    exact absurd hclash (Content.not_clashes_empty _)
  · intro _
    exact ⟨_, congrArg (Prod.mk _) (setNode_node _ _).symm, rfl, rfl, (Content.append_empty _).symm⟩

theorem performs_run {a : Action S} (ha : a.IsPlain) :
    Performs a (t.nodeAt i a.path) (a.run t i) := by
  cases a with
  | on method path h => exact performs_on t i method path h
  | mount path h => exact performs_mount t i path ha
  | handle pattern h =>
      rw [Action.path, nodeAt_empty]
      exact performs_handle t i pattern ha
  | use ms =>
      rw [Action.path, nodeAt_empty]
      exact performs_use t i ms
  | sub path => exact performs_sub t i path

end Performs

/-! ## All calls -/

/-- Registrations none of which clashes with those before it. -/
def Free (plan : Plan (Handler S) (Middleware S)) : Plan (Handler S) (Middleware S) → Prop
  | [] => True
  | r :: more => ¬(plan.content r.position).Clashes r.item.content ∧ Free (plan ++ [r]) more

/-- A router that holds what a plan says, and its views. -/
structure Built (root : NodeId) (b : Building S) (plan : Plan (Handler S) (Middleware S))
    (vs : Views Pattern) : Prop where
  draws : Draws b.routes root plan
  views : b.views.Agree (fun i p =>
    b.routes.locate root (Pattern.position p) = some i ∧ Plan.Covers plan p) vs
  distinct : ∀ pos, (plan.content pos).Distinct

section Calls

variable {root : NodeId} {b : Building S} {plan : Plan (Handler S) (Middleware S)}
  {vs : Views Pattern} {c : Call S} {calls : List (Call S)}

theorem distinct_append_singleton {r : Registration (Handler S) (Middleware S)}
    (hdistinct : ∀ pos, (plan.content pos).Distinct)
    (hclash : ¬(plan.content r.position).Clashes r.item.content) (pos : Position) :
    (Plan.content (plan ++ [r]) pos).Distinct := by
  rw [Plan.content_append_singleton]
  by_cases hpos : r.position = pos
  · subst hpos
    rw [Registration.content_position]
    exact (hdistinct _).append r.item.distinct_content hclash
  · rw [Registration.content_of_ne hpos]
    constructor
    · exact nodup_addNames (hdistinct pos).names _
    · simp only [Content.append, Content.empty, List.append_nil]
      exact (hdistinct pos).methods
    · simp only [Content.append, Content.empty, List.append_nil]
      exact (hdistinct pos).patterns

/-- A call panics if it clashes with what is registered; else it is registered behind that. -/
theorem Built.call (h : Built root b plan vs) (hc : c.action.IsPlain) :
    (plan.content (c.registration vs).position).Clashes c.action.item.content ∧ b.call c = none ∨
      ¬(plan.content (c.registration vs).position).Clashes c.action.item.content ∧
      ∃ b', b.call c = some b' ∧ Built root b' (plan ++ [c.registration vs]) (c.views vs) ∧
        Grows b.routes b'.routes root := by
  obtain ⟨hview, hcovers⟩ := h.views.get c.view
  have hnode := h.draws.hasNode_nodeAt hview hcovers c.action.path
  have hcontent : ((b.routes.nodeAt (b.views.get c.view) c.action.path).2.node
      (b.routes.nodeAt (b.views.get c.view) c.action.path).1).content =
        plan.content (c.registration vs).position := by
    have hempty : (⟨c.pattern vs, .view⟩ : Registration (Handler S) (Middleware S)).content
        (c.registration vs).position = .empty :=
      Registration.content_position ⟨c.pattern vs, .view⟩
    exact (hnode.draws.content hnode.located).trans
      ((Plan.content_append_singleton _ _ _).trans ((congrArg _ hempty).trans (Content.append_empty _)))
  have hperforms := performs_run b.routes (b.views.get c.view) hc
  by_cases hclash : (plan.content (c.registration vs).position).Clashes c.action.item.content
  · refine Or.inl ⟨hclash, ?_⟩
    obtain ⟨e, he⟩ := hperforms.clash (hcontent ▸ hclash)
    rw [Building.call, he]
  · refine Or.inr ⟨hclash, ?_⟩
    obtain ⟨n, hrun, hliterals, hdynamic, hn⟩ := hperforms.done (hcontent ▸ hclash)
    generalize hr : b.routes.nodeAt (b.views.get c.view) c.action.path = r at *
    have hgrows := hnode.grows.trans
      (grows_setNode hnode.located (hnode.draws.lt hnode.located) hliterals hdynamic)
    refine ⟨⟨r.2.setNode r.1 n, b.views.extend (c.action.given r.1)⟩, ?_, ⟨?_, ?_, ?_⟩, hgrows⟩
    · simp only [Building.call, hrun, hr]
    · exact Draws.register (r := c.registration vs) hnode.draws hnode.located hliterals hdynamic hn
    · have hold : b.views.Agree (fun i p =>
          (r.2.setNode r.1 n).locate root (Pattern.position p) = some i ∧
            Plan.Covers (plan ++ [c.registration vs]) p) vs :=
        h.views.mono fun i p ⟨hi, hp⟩ => ⟨hgrows.located hi, hp.append _⟩
      have hnew : (r.2.setNode r.1 n).locate root (Pattern.position (c.pattern vs)) = some r.1 ∧
          Plan.Covers (plan ++ [c.registration vs]) (c.pattern vs) := by
        constructor
        · rw [locate_setNode (hnode.draws.lt hnode.located) (next_congr hliterals hdynamic)]
          exact hnode.located
        · exact Plan.covers_last plan (c.registration vs)
      unfold Call.views
      cases c.action with
      | sub path => exact hold.extend hnew
      | _ =>
          simp only [Action.given, Views.extend_none]
          exact hold
    · exact distinct_append_singleton h.distinct hclash

theorem Built.run (h : Built root b plan vs) (hcalls : ∀ c ∈ calls, c.action.IsPlain) :
    ¬Free plan (registrations vs calls) ∧ b.run calls = none ∨
      Free plan (registrations vs calls) ∧ ∃ b' vs', b.run calls = some b' ∧
        Built root b' (plan ++ registrations vs calls) vs' ∧ Grows b.routes b'.routes root := by
  induction calls generalizing b plan vs with
  | nil =>
      refine Or.inr ⟨trivial, b, vs, rfl, ?_, Grows.rfl⟩
      rwa [registrations, List.append_nil]
  | cons c calls ih =>
      rcases h.call (hcalls c List.mem_cons_self) with ⟨hclash, hnone⟩ | ⟨hclash, b', hb, hbuilt, hgrows⟩
      · refine Or.inl ⟨fun hfree => hfree.1 hclash, ?_⟩
        rw [Building.run, hnone, Option.bind_none]
      · have hrun : b.run (c :: calls) = b'.run calls := by rw [Building.run, hb, Option.bind_some]
        rw [hrun, registrations]
        rcases ih hbuilt fun c hc => hcalls c (List.mem_cons_of_mem _ hc) with
          ⟨hfree, hnone⟩ | ⟨hfree, b'', vs'', hb', hbuilt', hgrows'⟩
        · exact Or.inl ⟨fun h => hfree h.2, hnone⟩
        · refine Or.inr ⟨⟨hclash, hfree⟩, b'', vs'', hb', ?_, hgrows.trans hgrows'⟩
          rwa [List.append_assoc] at hbuilt'

end Calls

theorem router_run {b b' : Building S} {calls : List (Call S)} (h : b.run calls = some b') :
    b'.views.router = b.views.router := by
  induction calls generalizing b with
  | nil =>
      obtain rfl := Option.some.inj h
      rfl
  | cons c calls ih =>
      rw [Building.run, Option.bind_eq_some_iff] at h
      obtain ⟨b₁, hcall, hrun⟩ := h
      rw [ih hrun]
      simp only [Building.call] at hcall
      split at hcall
      · obtain rfl := Option.some.inj hcall
        rfl
      · cases hcall

theorem locate_fresh (t : Routes S) (pos : Position) :
    t.addNode.2.locate t.size pos = if pos = [] then some t.size else none := by
  cases pos with
  | nil => rfl
  | cons s pos =>
      rw [locate, node_addNode, node_of_le (Nat.le_refl _), Node.next_empty]
      rfl

theorem built_fresh (t : Routes S) : Built t.size (Building.fresh t) [] ⟨[], []⟩ := by
  have hnode : t.addNode.2.node t.size = .empty := by
    rw [node_addNode, node_of_le (Nat.le_refl _)]
  have hlocate {pos : Position} {i : NodeId} (h : t.addNode.2.locate t.size pos = some i) :
      pos = [] ∧ i = t.size := by
    rw [locate_fresh] at h
    split at h
    · next hpos => exact ⟨hpos, (Option.some.inj h).symm⟩
    · cases h
  constructor
  · constructor
    · constructor
      · intro pos i hi
        obtain ⟨-, rfl⟩ := hlocate hi
        rw [Building.fresh, size_addNode]
        exact Nat.lt_succ_self _
      · intro p q i hp hq
        rw [(hlocate hp).1, (hlocate hq).1]
      · intro pos i hi
        obtain ⟨-, rfl⟩ := hlocate hi
        rw [Building.fresh, hnode]
        exact List.nodup_nil
    · constructor
      · intro pos
        rw [Building.fresh, locate_fresh]
        cases pos <;> rfl
      · intro pos i hi
        obtain ⟨-, rfl⟩ := hlocate hi
        rw [Building.fresh, hnode]
        rfl
  · exact ⟨⟨rfl, Or.inl rfl⟩, .nil⟩
  · intro pos
    exact Content.distinct_empty

/-- A new router after calls none of which panicked. -/
theorem built_run {t : Routes S} {calls : List (Call S)} {b : Building S}
    (hcalls : ∀ c ∈ calls, c.action.IsPlain) (hb : (Building.fresh t).run calls = some b) :
    ∃ vs, Built t.size b (Router.plan calls) vs ∧ Free [] (Router.plan calls) ∧
      b.views.router = t.size ∧ Grows t.addNode.2 b.routes t.size := by
  rcases (built_fresh t).run hcalls with ⟨-, hnone⟩ | ⟨hfree, b', vs, hrun, hbuilt, hgrows⟩
  · rw [hb] at hnone
    cases hnone
  · obtain rfl := Option.some.inj (hb.symm.trans hrun)
    exact ⟨vs, hbuilt, hfree, router_run hb, hgrows⟩

end Router

end WebResource
