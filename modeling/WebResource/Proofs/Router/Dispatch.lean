import Mathlib.Data.List.Forall2
import WebResource.Proofs.Path
import WebResource.Router.Handler

namespace WebResource.Trie

/-!
# Mounted handlers

A handler that is mounted in a new router is reached by every request for its path or below, with
the mark of the routing position behind the path, and by no other request.
-/

variable {H M : Type} {t : Trie H M} {i j k root : Nat} {n : Node H M}

/-! ## Nodes of a changed trie -/

theorem node_setNode_self (h : i < t.size) : (t.setNode i n).node i = n := by
  simp only [node, setNode]
  rw [List.getElem?_set_self h]
  rfl

theorem node_setNode_of_ne (h : i ≠ j) : (t.setNode i n).node j = t.node j := by
  simp only [node, setNode]
  rw [List.getElem?_set_ne h]

@[simp] theorem size_setNode : (t.setNode i n).size = t.size := by simp [size, setNode]

@[simp] theorem size_addNode : t.addNode.2.size = t.size + 1 := by simp [size, addNode]

@[simp] theorem node_addNode : t.addNode.2.node i = t.node i := by
  simp only [node, addNode]
  by_cases hi : i < t.nodes.length
  · rw [List.getElem?_append_left hi]
  · rw [List.getElem?_append_right (Nat.le_of_not_lt hi), List.getElem?_eq_none (Nat.le_of_not_lt hi)]
    cases i - t.nodes.length <;> rfl

theorem node_of_le (h : t.size ≤ i) : t.node i = .empty := by
  simp only [node]
  rw [List.getElem?_eq_none h]
  rfl

/-! ## Ways down -/

/-- The node that has only one child, for one segment of a pattern. -/
inductive Link : String → Nat → Node H M → Prop where
  | literal {s : String} {j : Nat} (h : ∀ name, s.toList ≠ ':' :: name) :
      Link s j { Node.empty with literals := [(s, j)] }
  | dynamic {s : String} {name : List Char} {j : Nat} (h : s.toList = ':' :: name) :
      Link s j { Node.empty with dynamic := some ⟨[String.ofList name], j⟩ }

/-- Nodes one below the other, each with nothing but the child for the next segment of a pattern. -/
inductive Leads (t : Trie H M) : Nat → List String → Nat → Prop where
  | here (i : Nat) : Leads t i [] i
  | step {i j k : Nat} {s : String} {ps : List String} (hlt : i < j) (hlink : Link s j (t.node i))
      (h : Leads t j ps k) : Leads t i (s :: ps) k

theorem Leads.le {ps : List String} (h : Leads t i ps k) : i ≤ k := by
  induction h with
  | here i => exact Nat.le_refl i
  | step hlt hlink h ih => omega

theorem Leads.setNode {ps : List String} (h : Leads t i ps k) : Leads (t.setNode k n) i ps k := by
  induction h with
  | here i => exact .here i
  | @step i j k s ps hlt hlink h ih =>
      have hne : k ≠ i := by
        have hle := h.le
        omega
      exact .step hlt ((node_setNode_of_ne hne).symm ▸ hlink) ih

theorem Leads.split {ps qs : List String} (h : Leads t i (ps ++ qs) k) :
    ∃ j, Leads t i ps j ∧ Leads t j qs k := by
  induction ps generalizing i with
  | nil => exact ⟨i, .here i, h⟩
  | cons s ps ih =>
      cases h with
      | step hlt hlink h =>
          obtain ⟨j, hps, hqs⟩ := ih h
          exact ⟨j, .step hlt hlink hps, hqs⟩

/-- A segment of a request that a segment of a pattern takes. -/
def Takes (pattern segment : String) : Prop := pattern.toList.head? = some ':' ∨ pattern = segment

theorem takes_refl (s : String) : Takes s s := Or.inr rfl

theorem lookup_empty {s : String} : (PatternTable.empty : PatternTable H).lookup s = none := rfl

theorem visit_of_link {s uri : String} {left : List String} {w : Walk H M}
    (h : Link s j (t.node w.node)) : t.visit uri left w = w := by
  obtain ⟨literals, dynamic, hn⟩ : ∃ literals dynamic,
      t.node w.node = { Node.empty with literals := literals, dynamic := dynamic } := by
    generalize t.node w.node = n at h
    cases h with
    | literal h => exact ⟨_, _, rfl⟩
    | dynamic h => exact ⟨_, _, rfl⟩
  simp [visit, hn, Node.empty, lookup_empty]

theorem Leads.walk (method uri : String) {ps ss : List String} (rest passed : List String)
    (params : PathParams) (h : Leads t i ps k) (hs : List.Forall₂ Takes ps ss) :
    ∃ params', t.walk method uri (ss ++ rest) ⟨i, passed, params, [], none⟩ =
      t.walk method uri rest ⟨k, passed ++ ss, params', [], none⟩ := by
  induction h generalizing ss passed params with
  | here i =>
      cases hs
      exact ⟨params, by rw [List.nil_append, List.append_nil]⟩
  | @step i j k s ps hlt hlink h ih =>
      cases hs with
      | @cons _ b _ ss hs hss =>
          have hpassed : passed ++ b :: ss = passed ++ [b] ++ ss := by simp
          rw [hpassed, List.cons_append, Trie.walk, visit_of_link hlink]
          generalize hn : t.node i = n at hlink
          cases hlink with
          | literal hlit =>
              have hb : s = b := hs.resolve_left fun hhead => by
                obtain ⟨name, hname⟩ : ∃ name, s.toList = ':' :: name := by
                  cases hl : s.toList with
                  | nil => simp [hl] at hhead
                  | cons c name =>
                      rw [hl, List.head?_cons, Option.some_inj] at hhead
                      exact ⟨name, by rw [hhead]⟩
                exact hlit name hname
              obtain ⟨params', hwalk⟩ := ih (passed ++ [b]) params hss
              refine ⟨params', hwalk ▸ ?_⟩
              simp [Node.literal?, hb]
          | @dynamic name _ hdyn =>
              obtain ⟨params', hwalk⟩ := ih (passed ++ [b])
                (params.addAll [String.ofList name] (Percent.decodeSegment b)) hss
              refine ⟨params', hwalk ▸ ?_⟩
              simp [Node.literal?, Node.empty]

/-! ## Registration -/

theorem child_empty (hi : i < t.size) (he : t.node i = .empty) (s : String) :
    (t.child i s).1 = t.size ∧ (t.child i s).2.size = t.size + 1 ∧
      Link s t.size ((t.child i s).2.node i) ∧ ∀ j, j ≠ i → (t.child i s).2.node j = t.node j := by
  have hi' : i < t.addNode.2.size := by simp; omega
  unfold child
  split
  · next name hs =>
      simp only [dynamicChild, he]
      refine ⟨rfl, by simp [Node.empty], ?_, fun j hj => ?_⟩
      · simp only [Node.empty]
        rw [node_setNode_self hi']
        exact .dynamic hs
      · simp only [Node.empty]
        rw [node_setNode_of_ne hj.symm, node_addNode]
  · next hs =>
      simp only [literalChild, he]
      refine ⟨rfl, by simp [Node.empty, Node.literal?], ?_, fun j hj => ?_⟩
      · simp only [Node.empty, Node.literal?]
        simp only [List.find?_nil, Option.map_none, List.nil_append]
        rw [node_setNode_self hi']
        exact .literal hs
      · simp only [Node.empty, Node.literal?]
        simp only [List.find?_nil, Option.map_none]
        rw [node_setNode_of_ne hj.symm, node_addNode]

theorem descend_empty (hi : i < t.size) (he : t.node i = .empty) (ps : List String) :
    Leads (t.descend i ps).2 i ps (t.descend i ps).1 ∧
      (t.descend i ps).1 < (t.descend i ps).2.size ∧
      (t.descend i ps).2.node (t.descend i ps).1 = .empty ∧
      ∀ j < t.size, j ≠ i → (t.descend i ps).2.node j = t.node j := by
  induction ps generalizing t i with
  | nil => exact ⟨.here i, hi, he, fun _ _ _ => rfl⟩
  | cons s ps ih =>
      obtain ⟨hnew, hsize, hlink, hframe⟩ := child_empty hi he s
      have hlt : t.size < (t.child i s).2.size := by omega
      have hempty : (t.child i s).2.node t.size = .empty := by
        rw [hframe t.size (by omega), node_of_le (Nat.le_refl _)]
      have hdescend : t.descend i (s :: ps) = (t.child i s).2.descend t.size ps := by
        rw [descend, ← hnew]
      obtain ⟨hleads, hlast, hend, hrest⟩ := ih hlt hempty
      rw [hdescend]
      refine ⟨.step hi ((hrest i (by omega) (by omega)).symm ▸ hlink) hleads, hlast, hend,
        fun j hj hji => ?_⟩
      rw [hrest j (by omega) (by omega), hframe j hji]

/-! ## Dispatch -/

/-- A handler that gets every request for a path and for all below it. -/
def Serves (t : Trie H M) (root : Nat) (path : List String) (h : H) : Prop :=
  ∀ method uri rest, ∃ params, t.dispatch root method ⟨uri, [], path ++ rest⟩ .empty =
    some ⟨h, ⟨uri, path, rest⟩, params, [], false⟩

theorem mount_empty (hroot : root < t.size) (he : t.node root = .empty) (path : String) (h : H) :
    (t.mount root path h).1 = none ∧ ∃ k, Leads (t.mount root path h).2 root (Path.segments path) k ∧
      (t.mount root path h).2.node k = { Node.empty with fallback := some h } := by
  obtain ⟨hleads, hlt, hend, -⟩ := descend_empty hroot he (Path.segments path)
  have hmount : t.mount root path h = (none, (t.nodeAt root path).2.setNode (t.nodeAt root path).1
      { Node.empty with fallback := some h }) := by
    simp only [mount, nodeAt, hend]
    rfl
  rw [hmount]
  exact ⟨rfl, _, hleads.setNode, node_setNode_self hlt⟩

/-- A handler that is mounted in a new router serves every path that its own path matches. -/
theorem serves_mount (hroot : root < t.size) (he : t.node root = .empty) (path : String) (h : H)
    {segments : List String} (hs : List.Forall₂ Takes (Path.segments path) segments) :
    (t.mount root path h).2.Serves root segments h := by
  obtain ⟨-, k, hleads, hnode⟩ := mount_empty hroot he path h
  intro method uri rest
  obtain ⟨params, hwalk⟩ := hleads.walk method uri rest [] .empty hs
  refine ⟨params, ?_⟩
  rw [dispatch, hwalk, List.nil_append]
  cases rest with
  | nil => simp [Trie.walk, visit, settle, hnode, Node.empty, Node.method?, lookup_empty]
  | cons s rest => simp [Trie.walk, visit, settle, hnode, Node.empty, Node.literal?, lookup_empty]

theorem dispatch_mount_above (hroot : root < t.size) (he : t.node root = .empty) (path : String)
    (h : H) {above : List String} {s : String} {below : List String}
    (hpath : Path.segments path = above ++ s :: below) (method uri : String) :
    (t.mount root path h).2.dispatch root method ⟨uri, [], above⟩ .empty = none := by
  obtain ⟨-, k, hleads, -⟩ := mount_empty hroot he path h
  rw [hpath] at hleads
  obtain ⟨j, habove, hbelow⟩ := hleads.split
  have hself : List.Forall₂ Takes above above := List.forall₂_same.mpr fun s _ => takes_refl s
  obtain ⟨params, hwalk⟩ := habove.walk method uri [] [] .empty hself
  rw [List.append_nil, List.nil_append] at hwalk
  rw [dispatch, hwalk]
  cases hbelow with
  | step hlt hlink hbelow =>
      rw [Trie.walk, visit_of_link (w := ⟨j, above, params, [], none⟩) hlink]
      generalize (t.mount root path h).2.node j = n at hlink
      cases hlink with
      | literal hlit => rfl
      | dynamic hdyn => rfl

end WebResource.Trie

namespace WebResource.Handler

variable {S : Type}

/-- A request that is dispatched to a handler without middlewares around it is served by that
handler, and a panic in it becomes a response. -/
theorem call_ofRouter {t : Routes S} {root : NodeId} {request : Request}
    {route : Trie.Route (Handler S) (Middleware S)}
    (h : t.dispatch root request.method request.routing request.attributes.pathParams = some route)
    (hmiddlewares : route.middlewares = []) :
    ∃ routers, (ofRouter root).call t request =
      recovering (fun _ => route.handler.serve routers (Router.Route.request route request)) request := by
  refine ⟨Router.services t (t.size * (request.routing.left.length + 1)), ?_⟩
  change recovering (Router.route t _ root) request = _
  have hroute : Router.route t (Router.services t (t.size * (request.routing.left.length + 1))) root
      request = route.handler.serve
        (Router.services t (t.size * (request.routing.left.length + 1)))
        (Router.Route.request route request) := by
    simp only [Router.route, h, hmiddlewares, Router.wrap]
  simp only [recovering, hroute]

end WebResource.Handler
