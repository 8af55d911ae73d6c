import WebResource.Proofs.Router.Assembly
import WebResource.Proofs.Router.Circles
import WebResource.Proofs.Router.Forests

namespace WebResource.Router

/-!
# Mounts that end

A router that is mounted into another one is merged node by node, until all is done or something clashes.
That comes to an end unless the merge goes in a circle. It cannot where one of the two routers has not
been joined with any before, whatever the other one is, and in whatever order children are merged.
-/

open Trie Assembly

variable {S : Type} {w : Assembly S} {r s : Ref}

/-- How a router that is mounted at a path of another one is merged. -/
structure MountEnds (w : Assembly S) (r : Ref) (path : String) (s : Ref) : Prop where
  /-- A router is registered for a pattern as it is mounted at a path. -/
  handle : Router.handle w.routes r.node path (.ofRouter s.node) =
    Router.mount w.routes r.node path (.ofRouter s.node)
  /-- The mount is done or clashes as the merge does, if the merge ends. -/
  ends_iff : ∀ result, (∃ n, Pending.Ends n (mounting w r path s) result) ↔
    Router.mount w.routes r.node path (.ofRouter s.node) = result ∧ result.1 ≠ .endless
  /-- The merge never ends if, and only if, it goes in a circle. -/
  endless_iff : (Router.mount w.routes r.node path (.ofRouter s.node)).1 = .endless ↔
    Pending.FullCircle Eq (mounting w r path s)
  /-- It ends in every order of the children if, and only if, no order leads it in a circle. -/
  terminates_iff : Pending.Terminates List.Perm (mounting w r path s) ↔
    ¬Pending.FullCircle List.Perm (mounting w r path s)
  /-- Where every order ends after so many pairs, the one of the mount does. -/
  within : ∀ n, Pending.EndsWithin List.Perm n (mounting w r path s) →
    Pending.Terminates List.Perm (mounting w r path s) ∧ ∃ m ≤ n,
      Pending.Ends m (mounting w r path s) (Router.mount w.routes r.node path (.ofRouter s.node))
  /-- A router that is a tree can be mounted anywhere, also below itself. -/
  source : IsTree (mounting w r path s).trie s.node →
    Pending.EndsWithin List.Perm ((mounting w r path s).trie.descendants s.node).ncard
      (mounting w r path s)
  /-- Any router can be mounted on a tree that it shares no node with. -/
  target : IsTree (mounting w r path s).trie (w.routes.nodeAt r.node path).1 →
    Apart (mounting w r path s).trie (w.routes.nodeAt r.node path).1 s.node →
    Pending.EndsWithin List.Perm
      ((mounting w r path s).trie.descendants (w.routes.nodeAt r.node path).1).ncard
      (mounting w r path s)
  /-- One or the other is the case if one of the two routers has not been joined before. -/
  alone : Alone w.joins r.origin ∨ Alone w.joins s.origin →
    IsTree (mounting w r path s).trie s.node ∨
      IsTree (mounting w r path s).trie (w.routes.nodeAt r.node path).1 ∧
        Apart (mounting w r path s).trie (w.routes.nodeAt r.node path).1 s.node

section Views

variable {owner : NodeId → NodeId} (h : Owned w owner) (hr : r ∈ w.refs) (hs : s ∈ w.refs) (path : String)

include h hr hs

theorem tree_of_alone (halone : Alone w.joins s.origin) :
    IsTree (w.routes.nodeAt r.node path).2 s.node := by
  have hplaced := (h.sub hr path).placed (List.mem_append_left _ hs)
  obtain ⟨htree, pos, hpos⟩ := hplaced.tree halone
  exact htree.sub hpos

theorem apart_of_alone (halone : Alone w.joins r.origin) (hne : s.origin ≠ r.origin) :
    IsTree (w.routes.nodeAt r.node path).2 (w.routes.nodeAt r.node path).1 ∧
      Apart (w.routes.nodeAt r.node path).2 (w.routes.nodeAt r.node path).1 s.node := by
  let view : Ref := ⟨(w.routes.nodeAt r.node path).1, r.origin⟩
  have hsub := h.sub hr path
  have hview : view ∈ (w.call r (.sub path)).refs :=
    List.mem_append_right _ (List.mem_singleton_self _)
  obtain ⟨htree, pos, hpos⟩ := (hsub.placed hview).tree halone
  refine ⟨htree.sub hpos, ?_⟩
  intro p q k hp hq
  -- The node would belong to both origins.
  have howned := hsub.linked_below hview hp
  have howned' := hsub.linked_below (List.mem_append_left _ hs) hq
  exact hne (halone.eq_of_linked ((howned'.symm _ _).trans _ _ _ howned))

end Views

/-- However routers have been put together, a mount ends with success or a clash, unless its merge goes
in a circle. -/
theorem mount_ends (hw : Reachable w) (hr : r ∈ w.refs) (hs : s ∈ w.refs) (path : String) :
    MountEnds w r path s := by
  obtain ⟨owner, howned⟩ := hw.owned
  have hsub := howned.sub hr path
  have hi := (opens_nodeAt howned.sound (howned.placed hr).lt path).lt
  have hj := (hsub.placed (List.mem_append_left _ hs)).lt
  constructor
  · rfl
  · intro result
    exact exists_ends_iff hsub.sound hi hj
  · exact merge_endless_iff hsub.sound hi hj
  · exact terminates_iff hsub.sound hi hj List.Perm.subset
  · intro n hwithin
    obtain ⟨m, hm, result, hend⟩ := hwithin.ends List.Perm.refl
    obtain ⟨rfl, -⟩ := (exists_ends_iff hsub.sound hi hj).mp ⟨m, hend⟩
    exact ⟨hwithin.terminates, m, hm, hend⟩
  · intro htree
    exact htree.endsWithin_source (w.routes.nodeAt r.node path).1
  · intro htree hapart
    exact htree.endsWithin_target hapart hsub.sound.keys
  · intro halone
    by_cases hsource : Alone w.joins s.origin
    · exact Or.inl (tree_of_alone howned hr hs path hsource)
    · have htarget := halone.resolve_right hsource
      refine Or.inr (apart_of_alone howned hr hs path htarget ?_)
      intro hsame
      rw [hsame] at hsource
      exact hsource htarget

/-! Two routers that are each mounted below themselves, at `/a`, and one of them into the other then. The
mounts below themselves end, since a router that has not been joined is a tree. The last one does not: the
two nodes at `/a` are the children of themselves. -/

def loopNode (i : NodeId) : Node (Handler Unit) (Middleware Unit) :=
  { Node.empty with literals := [("a", i)] }

def oneLoop : Assembly Unit := Assembly.empty.new.new.join ⟨0, 0⟩ "/a" ⟨0, 0⟩

def twoLoops : Assembly Unit := oneLoop.join ⟨1, 1⟩ "/a" ⟨1, 1⟩

theorem mount_oneLoop :
    Router.mount (Assembly.empty.new.new : Assembly Unit).routes 0 "/a" (.ofRouter 0) =
      (.done, ⟨[loopNode 2, .empty, loopNode 2]⟩) := by
  have hmerge := merge_of_common_nil (i := 2) (j := 0)
    (t := ((Assembly.empty.new.new : Assembly Unit).routes.nodeAt 0 "/a").2)
    (by decide) (by decide) (by rfl)
  exact hmerge

theorem mount_twoLoops : Router.mount oneLoop.routes 1 "/a" (.ofRouter 1) =
    (.done, ⟨[loopNode 2, loopNode 3, loopNode 2, loopNode 3]⟩) := by
  rw [oneLoop, join, mount_oneLoop]
  have hmerge := merge_of_common_nil (i := 3) (j := 1)
    (t := (Trie.nodeAt ⟨[loopNode 2, .empty, loopNode 2]⟩ 1 "/a").2) (by decide) (by decide) (by rfl)
  exact hmerge

theorem fullCircle_twoLoops : Pending.FullCircle Eq (mounting twoLoops ⟨0, 0⟩ "/" ⟨1, 1⟩) := by
  let t : Routes Unit := ⟨[loopNode 2, loopNode 3, loopNode 2, loopNode 3]⟩
  have hroutes : twoLoops.routes = t := congrArg Prod.snd mount_twoLoops
  have hmounting : mounting twoLoops ⟨0, 0⟩ "/" ⟨1, 1⟩ = ⟨t, [(0, 1)]⟩ := by
    rw [mounting, hroutes]
    rfl
  have hfirst : Pending.Advances Eq ⟨t, [(0, 1)]⟩ ⟨t, [(2, 3)]⟩ := .node (by decide) (by rfl) rfl
  have hround : Pending.Advances Eq ⟨t, [(2, 3)]⟩ ⟨t, [(2, 3)]⟩ := .node (by decide) (by rfl) rfl
  rw [hmounting]
  exact ⟨(t, 2, 3), (t, 2, 3), ⟨[], .single hfirst⟩, ⟨[], .single hround⟩, rfl, rfl⟩

theorem mount_ends_twoLoops :
    (∃ n, Pending.Ends n (mounting Assembly.empty.new.new ⟨0, 0⟩ "/a" ⟨0, 0⟩)
      (Router.mount (Assembly.empty.new.new : Assembly Unit).routes 0 "/a" (.ofRouter 0))) ∧
    Reachable twoLoops ∧ ⟨0, 0⟩ ∈ twoLoops.refs ∧ ⟨1, 1⟩ ∈ twoLoops.refs ∧
      (Router.mount twoLoops.routes 0 "/" (.ofRouter 1)).1 = .endless := by
  have hnew : Reachable (Assembly.empty.new.new : Assembly Unit) := .new (.new .empty)
  have hone : Reachable oneLoop := by
    refine .join hnew (by decide) (by decide) ?_
    intro hendless
    cases hendless.symm.trans (congrArg Prod.fst mount_oneLoop)
  have htwo : Reachable twoLoops := by
    refine .join hone (by decide) (by decide) ?_
    intro hendless
    cases hendless.symm.trans (congrArg Prod.fst mount_twoLoops)
  have hmem : ⟨0, 0⟩ ∈ twoLoops.refs := by decide
  have hmem' : ⟨1, 1⟩ ∈ twoLoops.refs := by decide
  have hself := mount_ends hnew (r := ⟨0, 0⟩) (s := ⟨0, 0⟩) (by decide) (by decide) "/a"
  have hother := mount_ends htwo hmem hmem' "/"
  refine ⟨?_, htwo, hmem, hmem', hother.endless_iff.mpr fullCircle_twoLoops⟩
  have hnone : Alone ([] : List (NodeId × NodeId)) 0 := nofun
  rcases hself.alone (Or.inl hnone) with htree | ⟨htree, hapart⟩
  · obtain ⟨-, n, -, hend⟩ := hself.within _ (hself.source htree)
    exact ⟨n, hend⟩
  · obtain ⟨-, n, -, hend⟩ := hself.within _ (hself.target htree hapart)
    exact ⟨n, hend⟩

end WebResource.Router
