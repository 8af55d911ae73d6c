import WebResource.Proofs.Router.Registering
import WebResource.Proofs.Router.Regions

namespace WebResource

/-!
# The routers of a program

All routers that a program makes, with their views, in one trie. A router that is mounted into another
one joins the routers that they come from. Whatever is called, with success or with a panic that is
caught, nodes are shared only between routers that have been joined, and a router that has not been
joined is a tree.
-/

namespace Trie

variable {H M : Type} {t : Trie H M} {root i : NodeId} {pos : Position}

theorem IsTree.descend (ht : IsTree t root) (hp : t.locate root pos = some i) (segments : List String) :
    IsTree (t.descend i segments).2 root := by
  induction segments generalizing t i pos with
  | nil => exact ht
  | cons s segments ih =>
      have hchild := makesChild_child (ht.lt hp) s
      exact ih (hchild.isTree ht hp) (hchild.located ht hp)

/-- A tree stays one if nodes are changed in what they hold. -/
theorem IsTree.setNode (ht : IsTree t root) {n : Node H M} (hi : i < t.size)
    (hliterals : n.literals = (t.node i).literals) (hdynamic : n.dynamic = (t.node i).dynamic) :
    IsTree (t.setNode i n) root := by
  have hlocate (pos : Position) : (t.setNode i n).locate root pos = t.locate root pos :=
    locate_setNode hi (next_congr hliterals hdynamic) pos
  constructor
  · intro pos k hk
    rw [hlocate] at hk
    rw [size_setNode]
    exact ht.lt hk
  · intro p q k hp hq
    rw [hlocate] at hp hq
    exact ht.unique hp hq
  · intro pos k hk
    rw [hlocate] at hk
    rw [field_setNode Node.literals hliterals]
    exact ht.keys hk

theorem Sound.setNode (ht : Sound t) {n : Node H M} (hliterals : n.literals = (t.node i).literals)
    (hdynamic : n.dynamic = (t.node i).dynamic) : Sound (t.setNode i n) := by
  constructor
  · intro k
    rw [field_setNode Node.literals hliterals]
    exact ht.keys k
  · intro k s c hc
    rw [field_setNode (fun m => m.next s) (next_congr hliterals hdynamic s)] at hc
    rw [size_setNode]
    exact ht.lt hc

end Trie

namespace Router

open Trie

variable {S : Type}

/-- A router: the node that it starts at, and the one of the new router that it comes from. Clones of
a router are the same, and a view of a router comes from where the router does. -/
structure Ref where
  node : NodeId
  origin : NodeId
  deriving DecidableEq

/-- Routers in a trie, and which of their origins have been joined. -/
structure Assembly (S : Type) where
  routes : Routes S
  refs : List Ref
  joins : List (NodeId × NodeId)

/-- A router that is about to be merged into the node of a path of another one. -/
def mounting (w : Assembly S) (r : Ref) (path : String) (s : Ref) :
    Pending (Handler S) (Middleware S) :=
  let view := w.routes.nodeAt r.node path
  ⟨view.2, [(view.1, s.node)]⟩

/-- A mount is one of the merges that there may be. -/
theorem merges_mount {w : Assembly S} {r s : Ref} {path : String}
    (hends : (Router.mount w.routes r.node path (.ofRouter s.node)).1 ≠ .endless) :
    Pending.Merges (mounting w r path s) (Router.mount w.routes r.node path (.ofRouter s.node)) :=
  Pending.merges_merge hends

namespace Assembly

def empty : Assembly S := ⟨.empty, [], []⟩

def new (w : Assembly S) : Assembly S :=
  let (i, t) := w.routes.addNode
  ⟨t, w.refs ++ [⟨i, i⟩], w.joins⟩

/-- A call on a router, which may give a view. A call that panics leaves what it has done. -/
def call (w : Assembly S) (r : Ref) (a : Action S) : Assembly S :=
  let view := a.given (w.routes.nodeAt r.node a.path).1
  ⟨(a.run w.routes r.node).2, w.refs ++ view.toList.map fun i => ⟨i, r.origin⟩, w.joins⟩

/-- A router is mounted below a path of another one, or registered for it as a pattern, which is the
same for routers. -/
def join (w : Assembly S) (r : Ref) (path : String) (s : Ref) : Assembly S :=
  ⟨(Router.mount w.routes r.node path (.ofRouter s.node)).2, w.refs, (r.origin, s.origin) :: w.joins⟩

/-- What calls can make of nothing, in whatever order a router is merged. A merge that never ends is no
call that one goes on after. -/
inductive Reachable : Assembly S → Prop where
  | empty : Reachable .empty
  | new {w : Assembly S} (h : Reachable w) : Reachable w.new
  | call {w : Assembly S} {r : Ref} {a : Action S} (h : Reachable w) (hr : r ∈ w.refs)
      (ha : a.IsPlain) : Reachable (w.call r a)
  | merge {w : Assembly S} {r s : Ref} {path : String} {result : Merged × Routes S} (h : Reachable w)
      (hr : r ∈ w.refs) (hs : s ∈ w.refs) (hmerges : Pending.Merges (mounting w r path s) result) :
      Reachable ⟨result.2, w.refs, (r.origin, s.origin) :: w.joins⟩

theorem Reachable.join {w : Assembly S} {r s : Ref} {path : String} (h : Reachable w) (hr : r ∈ w.refs)
    (hs : s ∈ w.refs)
    (hends : (Router.mount w.routes r.node path (.ofRouter s.node)).1 ≠ .endless) :
    Reachable (w.join r path s) :=
  h.merge hr hs (merges_mount hends)

/-- Origins that have been joined, directly or through others. -/
def Linked (joins : List (NodeId × NodeId)) : NodeId → NodeId → Prop :=
  Relation.EqvGen fun f g => (f, g) ∈ joins

/-- An origin that has not been joined. -/
def Alone (joins : List (NodeId × NodeId)) (f : NodeId) : Prop := ∀ e ∈ joins, e.1 ≠ f ∧ e.2 ≠ f

section Linked

variable {joins : List (NodeId × NodeId)} {e : NodeId × NodeId} {f g k : NodeId}

theorem Linked.cons (h : Linked joins f g) : Linked (e :: joins) f g :=
  Relation.EqvGen.mono (fun _ _ hmem => List.mem_cons_of_mem e hmem) f g h

theorem linked_head (f g : NodeId) : Linked ((f, g) :: joins) f g := .rel _ _ List.mem_cons_self

theorem Alone.tail (h : Alone (e :: joins) f) : Alone joins f :=
  fun e' he => h e' (List.mem_cons_of_mem e he)

theorem Alone.eq_of_linked (h : Alone joins f) (hlinked : Linked joins g f) : g = f := by
  suffices hiff : ∀ a b, Linked joins a b → (a = f ↔ b = f) from (hiff g f hlinked).mpr rfl
  intro a b hab
  induction hab with
  | rel a b hmem => exact iff_of_false (h _ hmem).1 (h _ hmem).2
  | refl a => exact Iff.rfl
  | symm a b _ ih => exact ih.symm
  | trans a b c _ _ ih ih' => exact ih.trans ih'

end Linked

/-! ## Owners -/

/-- A router whose nodes belong to its origin, and are a tree if the origin has not been joined. -/
structure Placed (t : Routes S) (joins : List (NodeId × NodeId)) (owner : NodeId → NodeId) (r : Ref) :
    Prop where
  lt : r.node < t.size
  lt_origin : r.origin < t.size
  node : Linked joins (owner r.node) r.origin
  origin : Linked joins (owner r.origin) r.origin
  tree : Alone joins r.origin → IsTree t r.origin ∧ ∃ pos, t.locate r.origin pos = some r.node

/-- Each node belongs to an origin, and only nodes of joined origins are linked. -/
structure Owned (w : Assembly S) (owner : NodeId → NodeId) : Prop where
  sound : Sound w.routes
  link : ∀ {k s c}, (w.routes.node k).next s = some c → Linked w.joins (owner c) (owner k)
  placed : ∀ {r}, r ∈ w.refs → Placed w.routes w.joins owner r

variable {w : Assembly S} {owner : NodeId → NodeId} {r s : Ref} {i j k f : NodeId} {pos : Position}
  {t : Routes S}

theorem linked_locate {joins : List (NodeId × NodeId)}
    (hlink : ∀ {k s c}, (t.node k).next s = some c → Linked joins (owner c) (owner k))
    (hk : t.locate i pos = some k) : Linked joins (owner k) (owner i) := by
  induction pos generalizing i with
  | nil =>
      obtain rfl := Option.some.inj hk
      exact .refl _
  | cons step pos ih =>
      obtain ⟨c, hc, hk⟩ := Option.bind_eq_some_iff.mp hk
      exact (ih hk).trans _ _ _ (hlink hc)

/-- The nodes below a router belong to its origin. -/
theorem Owned.linked_below (h : Owned w owner) (hr : r ∈ w.refs)
    (hk : w.routes.locate r.node pos = some k) : Linked w.joins (owner k) r.origin :=
  (linked_locate h.link hk).trans _ _ _ (h.placed hr).node

theorem owned_empty : Owned (.empty : Assembly S) id where
  sound := by
    constructor
    · intro k
      rw [empty, node_of_le (Nat.zero_le k)]
      exact List.nodup_nil
    · intro k s c hc
      exact absurd (lt_of_next hc) (Nat.not_lt_zero k)
  link := by
    intro k s c hc
    exact absurd (lt_of_next hc) (Nat.not_lt_zero k)
  placed := nofun

/-- A router is as it was after a change that leaves alone what its origin has, if it is a tree. -/
theorem Placed.keeps {joins joins' : List (NodeId × NodeId)} {owner' : NodeId → NodeId}
    (h : Placed t joins owner r) {t' : Routes S} (hsize : t.size ≤ t'.size)
    (howner : ∀ {k}, k < t.size → owner' k = owner k)
    (hlinked : ∀ {f g}, Linked joins f g → Linked joins' f g)
    (hkeeps : Alone joins' r.origin → Alone joins r.origin ∧ Keeps t t' r.origin) :
    Placed t' joins' owner' r := by
  constructor
  · exact Nat.lt_of_lt_of_le h.lt hsize
  · exact Nat.lt_of_lt_of_le h.lt_origin hsize
  · rw [howner h.lt]
    exact hlinked h.node
  · rw [howner h.lt_origin]
    exact hlinked h.origin
  · intro halone
    obtain ⟨halone', hkept⟩ := hkeeps halone
    obtain ⟨htree, pos, hpos⟩ := h.tree halone'
    exact ⟨htree.keeps hkept hsize, pos, (hkept.locate pos).trans hpos⟩

/-- The owners when new nodes belong to an origin. -/
def ownerWith (w : Assembly S) (owner : NodeId → NodeId) (f k : NodeId) : NodeId :=
  if k < w.routes.size then owner k else f

theorem ownerWith_old (hk : k < w.routes.size) : ownerWith w owner f k = owner k := if_pos hk

theorem ownerWith_new (hk : w.routes.size ≤ k) : ownerWith w owner f k = f :=
  if_neg (Nat.not_lt_of_le hk)

theorem placed_new (w : Assembly S) (owner : NodeId → NodeId) :
    Placed w.new.routes w.joins (ownerWith w owner w.routes.size) ⟨w.routes.size, w.routes.size⟩ := by
  have hlt : w.routes.size < w.new.routes.size := by
    rw [new, size_addNode]
    exact Nat.lt_succ_self _
  have howner : ownerWith w owner w.routes.size w.routes.size = w.routes.size :=
    ownerWith_new (Nat.le_refl _)
  refine ⟨hlt, hlt, ?_, ?_, ?_⟩
  · rw [howner]
    exact .refl _
  · rw [howner]
    exact .refl _
  · intro _
    exact ⟨(built_fresh w.routes).draws.toIsTree, [], rfl⟩

theorem Owned.new (h : Owned w owner) : Owned w.new (ownerWith w owner w.routes.size) := by
  have hsize : w.routes.size ≤ w.new.routes.size := by
    rw [Assembly.new, size_addNode]
    exact Nat.le_succ _
  have hnode (k : NodeId) : w.new.routes.node k = w.routes.node k := node_addNode
  constructor
  · constructor
    · intro k
      rw [hnode]
      exact h.sound.keys k
    · intro k s c hc
      rw [hnode] at hc
      exact Nat.lt_of_lt_of_le (h.sound.lt hc) hsize
  · intro k s c hc
    rw [hnode] at hc
    rw [ownerWith_old (h.sound.lt hc), ownerWith_old (lt_of_next hc)]
    exact h.link hc
  · intro r hr
    rcases List.mem_append.mp hr with hr | hr
    · exact (h.placed hr).keeps hsize ownerWith_old id fun halone => ⟨halone, fun _ k _ => hnode k⟩
    · obtain rfl := List.mem_singleton.mp hr
      exact placed_new w owner

/-! ### Views -/

section View

variable (h : Owned w owner) (hr : r ∈ w.refs) {p : Pattern} (hopens : Opens w.routes r.node p j t)

include h hr hopens

theorem Owned.linked_opens {step : Step} {c : NodeId} (hc : (t.node k).next step = some c) :
    Linked w.joins (ownerWith w owner r.origin c) (ownerWith w owner r.origin k) := by
  rcases hopens.fresh hc with hold | hle
  · rw [ownerWith_old (h.sound.lt hold), ownerWith_old (lt_of_next hold)]
    exact h.link hold
  · rw [ownerWith_new hle]
    by_cases hk : k < w.routes.size
    · rw [ownerWith_old hk]
      -- The link is new, so the pattern passes the node that it starts from.
      have hahead : ∃ rest, Ahead w.routes r.node (Pattern.position p) k (step :: rest) := by
        by_contra hnone
        rw [hopens.next hk (not_exists.mp hnone)] at hc
        exact absurd (h.sound.lt hc) (Nat.not_lt_of_le hle)
      obtain ⟨rest, front, -, hlocate⟩ := hahead
      exact (h.linked_below hr hlocate).symm _ _
    · rw [ownerWith_new (Nat.le_of_not_lt hk)]
      exact .refl _

theorem Owned.keeps_opens {r' : Ref} (hr' : r' ∈ w.refs) (halone : Alone w.joins r'.origin)
    (hne : r.origin ≠ r'.origin) : Keeps w.routes t r'.origin := by
  intro pos k hk
  have hbelow : Linked w.joins (owner k) r'.origin :=
    (linked_locate h.link hk).trans _ _ _ (h.placed hr').origin
  apply hopens.frame (h.sound.lt_locate (h.placed hr').lt_origin hk)
  rintro rest ⟨front, -, hlocate⟩
  have hlinked := ((h.linked_below hr hlocate).symm _ _).trans _ _ _ hbelow
  exact hne (halone.eq_of_linked hlinked)

/-- Views of a router, when the nodes of its origin stay a tree. -/
theorem Owned.opens
    (htree : ∀ pos, IsTree w.routes r.origin → w.routes.locate r.origin pos = some r.node →
      IsTree t r.origin) :
    Owned ⟨t, w.refs ++ [⟨j, r.origin⟩], w.joins⟩ (ownerWith w owner r.origin) := by
  have htree' (halone : Alone w.joins r.origin) :
      IsTree t r.origin ∧ ∃ pos, w.routes.locate r.origin pos = some r.node := by
    obtain ⟨hold, pos, hpos⟩ := (h.placed hr).tree halone
    exact ⟨htree pos hold hpos, pos, hpos⟩
  have hsame {r' : Ref} (hr' : r' ∈ w.refs) : Placed t w.joins (ownerWith w owner r.origin) r' := by
    by_cases horigin : r.origin = r'.origin
    · obtain ⟨hlt, hlt', hnode, howned, htree⟩ := h.placed hr'
      refine ⟨Nat.lt_of_lt_of_le hlt hopens.size, Nat.lt_of_lt_of_le hlt' hopens.size, ?_, ?_, ?_⟩
      · rw [ownerWith_old hlt]
        exact hnode
      · rw [ownerWith_old hlt']
        exact howned
      · intro halone
        obtain ⟨-, pos, hpos⟩ := htree halone
        rw [← horigin] at halone hpos ⊢
        exact ⟨(htree' halone).1, pos, hopens.locate hpos⟩
    · exact (h.placed hr').keeps hopens.size ownerWith_old id fun halone =>
        ⟨halone, h.keeps_opens hr hopens hr' halone horigin⟩
  constructor
  · exact hopens.sound
  · intro k step c hc
    exact h.linked_opens hr hopens hc
  · intro r' hr'
    rcases List.mem_append.mp hr' with hr' | hr'
    · exact hsame hr'
    · obtain rfl := List.mem_singleton.mp hr'
      obtain ⟨-, hlt, hnode, howned, -⟩ := hsame hr
      refine ⟨hopens.lt, hlt, ?_, howned, ?_⟩
      · exact (linked_locate (h.linked_opens hr hopens) hopens.located).trans _ _ _ hnode
      · intro halone
        obtain ⟨hdescended, pos, hpos⟩ := htree' halone
        refine ⟨hdescended, pos ++ Pattern.position p, ?_⟩
        exact (locate_append_of_some (hopens.locate hpos) _).trans hopens.located

end View

theorem Owned.sub (h : Owned w owner) (hr : r ∈ w.refs) (path : String) :
    Owned (w.call r (.sub path)) (ownerWith w owner r.origin) :=
  h.opens hr (opens_nodeAt h.sound (h.placed hr).lt path) fun _ htree hpos =>
    htree.descend hpos (Path.segments path)

theorem Owned.subset (h : Owned w owner) {refs : List Ref} (hrefs : refs ⊆ w.refs) :
    Owned { w with refs } owner :=
  ⟨h.sound, h.link, fun hr => h.placed (hrefs hr)⟩

/-- Owners do not depend on what nodes hold. -/
theorem Owned.setNode (h : Owned w owner) {n : Node (Handler S) (Middleware S)}
    (hi : i < w.routes.size) (hliterals : n.literals = (w.routes.node i).literals)
    (hdynamic : n.dynamic = (w.routes.node i).dynamic) :
    Owned { w with routes := w.routes.setNode i n } owner := by
  have hnext := next_congr hliterals hdynamic
  constructor
  · exact h.sound.setNode hliterals hdynamic
  · intro k step c hc
    exact h.link ((field_setNode (fun m => m.next step) (hnext step) k).symm.trans hc)
  · intro r hr
    obtain ⟨hlt, hlt', hnode, horigin, htree⟩ := h.placed hr
    refine ⟨size_setNode.symm ▸ hlt, size_setNode.symm ▸ hlt', hnode, horigin, ?_⟩
    intro halone
    obtain ⟨htree, pos, hpos⟩ := htree halone
    exact ⟨htree.setNode hi hliterals hdynamic, pos, (locate_setNode hi hnext pos).trans hpos⟩

/-- A call makes the node of its path and changes what is held there, also if it panics. -/
theorem exists_run {a : Action S} (ha : a.IsPlain) (t : Routes S) (i : NodeId) :
    ∃ n, (a.run t i).2 = (t.nodeAt i a.path).2.setNode (t.nodeAt i a.path).1 n ∧
      n.literals = ((t.nodeAt i a.path).2.node (t.nodeAt i a.path).1).literals ∧
      n.dynamic = ((t.nodeAt i a.path).2.node (t.nodeAt i a.path).1).dynamic := by
  have hperforms := performs_run t i ha
  by_cases hclash : ((t.nodeAt i a.path).2.node (t.nodeAt i a.path).1).content.Clashes a.item.content
  · obtain ⟨e, he⟩ := hperforms.clash hclash
    exact ⟨_, (congrArg Prod.snd he).trans (setNode_node _ _).symm, rfl, rfl⟩
  · obtain ⟨n, hn, hliterals, hdynamic, -⟩ := hperforms.done hclash
    exact ⟨n, congrArg Prod.snd hn, hliterals, hdynamic⟩

theorem Owned.call (h : Owned w owner) (hr : r ∈ w.refs) {a : Action S} (ha : a.IsPlain) :
    Owned (w.call r a) (ownerWith w owner r.origin) := by
  have hsub := h.sub hr a.path
  have hlt := (opens_nodeAt h.sound (h.placed hr).lt a.path).lt
  obtain ⟨n, hrun, hliterals, hdynamic⟩ := exists_run ha w.routes r.node
  have hrefs : (w.call r a).refs ⊆ (w.call r (.sub a.path)).refs := by
    cases a with
    | sub path => exact List.Subset.refl _
    | _ =>
        simp only [Assembly.call, Action.given, Option.toList_none, List.map_nil, List.append_nil]
        exact List.subset_append_left _ _
  have hroutes : (w.call r a).routes =
      (w.call r (.sub a.path)).routes.setNode (w.routes.nodeAt r.node a.path).1 n := hrun
  have hset := (hsub.setNode hlt hliterals hdynamic).subset hrefs
  rw [← hroutes] at hset
  exact hset

/-! ### Joined routers -/

/-- The nodes that two origins have once they are joined. -/
def Shared (w : Assembly S) (owner : NodeId → NodeId) (r s : Ref) (k : NodeId) : Prop :=
  k < w.routes.size ∧ Linked ((r.origin, s.origin) :: w.joins) (owner k) r.origin

/-- A change among the nodes of two routers that are joined. -/
theorem Owned.within (h : Owned w owner) (hwithin : Within w.routes (w.Shared owner r s) t) :
    Owned ⟨t, w.refs, (r.origin, s.origin) :: w.joins⟩ owner := by
  have hsize : w.routes.size ≤ t.size := Nat.le_of_eq hwithin.size.symm
  constructor
  · constructor
    · exact hwithin.keys
    · intro k step c hc
      by_cases hk : w.Shared owner r s k
      · exact Nat.lt_of_lt_of_le (hwithin.closed hk hc).1 hsize
      · rw [hwithin.frame hk] at hc
        exact Nat.lt_of_lt_of_le (h.sound.lt hc) hsize
  · intro k step c hc
    by_cases hk : w.Shared owner r s k
    · exact (hwithin.closed hk hc).2.trans _ _ _ (hk.2.symm _ _)
    · rw [hwithin.frame hk] at hc
      exact (h.link hc).cons
  · intro r' hr'
    refine (h.placed hr').keeps hsize (fun _ => rfl) Linked.cons fun halone => ⟨halone.tail, ?_⟩
    intro pos k hk
    apply hwithin.frame
    rintro ⟨-, hlinked⟩
    have hbelow := (linked_locate h.link hk).trans _ _ _ (h.placed hr').origin
    have hjoined := (hlinked.symm _ _).trans _ _ _ (Linked.cons hbelow)
    exact (halone _ List.mem_cons_self).1 (halone.eq_of_linked hjoined)

theorem Owned.shared (h : Owned w owner) (hr : r ∈ w.refs) (hs : s ∈ w.refs) :
    w.Shared owner r s r.node ∧ w.Shared owner r s s.node := by
  constructor
  · exact ⟨(h.placed hr).lt, (h.placed hr).node.cons⟩
  · exact ⟨(h.placed hs).lt, (h.placed hs).node.cons.trans _ _ _ ((linked_head _ _).symm _ _)⟩

theorem Owned.shared_next (h : Owned w owner) {step : Step} {c : NodeId} (hk : w.Shared owner r s k)
    (hc : (w.routes.node k).next step = some c) : w.Shared owner r s c :=
  ⟨h.sound.lt hc, (h.link hc).cons.trans _ _ _ hk.2⟩

theorem Owned.merge (h : Owned w owner) (hr : r ∈ w.refs) (hs : s ∈ w.refs) {path : String}
    {result : Merged × Routes S} (hmerges : Pending.Merges (mounting w r path s) result) :
    Owned ⟨result.2, w.refs, (r.origin, s.origin) :: w.joins⟩ (ownerWith w owner r.origin) := by
  let view : Ref := ⟨(w.routes.nodeAt r.node path).1, r.origin⟩
  have hsub := h.sub hr path
  have hview : view ∈ (w.call r (.sub path)).refs := List.mem_append_right _ (List.mem_singleton_self _)
  obtain ⟨htarget, hsource⟩ := hsub.shared hview (List.mem_append_left _ hs)
  have hwithin := Within.merges hsub.sound And.left hsub.shared_next htarget hsource hmerges
  exact (hsub.within hwithin).subset (List.subset_append_left w.refs [view])

theorem Reachable.owned (h : Reachable w) : ∃ owner, Owned w owner := by
  induction h with
  | empty => exact ⟨_, owned_empty⟩
  | new _ ih =>
      obtain ⟨owner, howned⟩ := ih
      exact ⟨_, howned.new⟩
  | call _ hr ha ih =>
      obtain ⟨owner, howned⟩ := ih
      exact ⟨_, howned.call hr ha⟩
  | merge _ hr hs hmerges ih =>
      obtain ⟨owner, howned⟩ := ih
      exact ⟨_, howned.merge hr hs hmerges⟩

end Assembly

end Router

end WebResource
