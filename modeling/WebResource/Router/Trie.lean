import WebResource.Context.Params
import WebResource.Path
import WebResource.Router.Patterns
import WebResource.Text.Percent

namespace WebResource

/-!
# The routing trie

Nodes of a graph, reached by literal segments or by one dynamic child that takes any segment. A
router is a node; a node may be reached by several paths, so a registration through one of them is
seen through all. Routers are joined by merging one node into another: what only the source has is
shared from then on, what both have is merged below.
-/

abbrev NodeId := Nat

/-- The child that takes any segment, and the names under which it records it. -/
structure DynamicChild where
  names : List String
  node : NodeId
  deriving DecidableEq, Repr

structure Node (H M : Type) where
  literals : List (String × NodeId)
  dynamic : Option DynamicChild
  patterns : PatternTable H
  methods : List (String × H)
  fallback : Option H
  middlewares : List M

namespace Node

variable {H M : Type}

def empty : Node H M := ⟨[], none, .empty, [], none, []⟩

def literal? (n : Node H M) (segment : String) : Option NodeId :=
  (n.literals.find? (·.1 == segment)).map (·.2)

def method? (n : Node H M) (method : String) : Option H :=
  (n.methods.find? (·.1 == method)).map (·.2)

/-- The most that a node can have for others to gain: children, and handlers. -/
def weight (n : Node H M) : Nat := n.literals.length + n.patterns.entries.length + n.methods.length + 2

end Node

inductive RouteTaken where
  | methodAt (method path : String)
  | method (method : String)
  | mount (path : String)
  | fallback
  | pattern (e : PatternTaken)
  deriving DecidableEq, Repr

namespace RouteTaken

def message : RouteTaken → String
  | .methodAt m p => s!"Handler for {m} {p} already registered"
  | .method m => s!"Handler for {m} already registered"
  | .mount p => s!"Default handler for {p} already registered"
  | .fallback => "Default handler already registered"
  | .pattern e => e.message

end RouteTaken

structure Trie (H M : Type) where
  nodes : List (Node H M)

namespace Trie

variable {H M : Type}

def empty : Trie H M := ⟨[]⟩

def size (t : Trie H M) : Nat := t.nodes.length

def node (t : Trie H M) (i : NodeId) : Node H M := t.nodes[i]?.getD .empty

def setNode (t : Trie H M) (i : NodeId) (n : Node H M) : Trie H M := ⟨t.nodes.set i n⟩

def addNode (t : Trie H M) : NodeId × Trie H M := (t.size, ⟨t.nodes ++ [.empty]⟩)

/-! ## Registration -/

/-- Adds names that are not there yet. -/
def addNames (names : List String) (more : List String) : List String :=
  more.foldl (fun names name => if names.contains name then names else names ++ [name]) names

/-- The dynamic child of a node, which records its segment under a name too. -/
def dynamicChild (t : Trie H M) (i : NodeId) (name : String) : NodeId × Trie H M :=
  let n := t.node i
  match n.dynamic with
  | some d => (d.node, t.setNode i { n with dynamic := some { d with names := addNames d.names [name] } })
  | none =>
    let (j, t) := t.addNode
    (j, t.setNode i { n with dynamic := some ⟨[name], j⟩ })

def literalChild (t : Trie H M) (i : NodeId) (segment : String) : NodeId × Trie H M :=
  let n := t.node i
  match n.literal? segment with
  | some j => (j, t)
  | none =>
    let (j, t) := t.addNode
    (j, t.setNode i { n with literals := n.literals ++ [(segment, j)] })

/-- The child that a segment of a pattern names, made if it is missing. -/
def child (t : Trie H M) (i : NodeId) (segment : String) : NodeId × Trie H M :=
  match segment.toList with
  | ':' :: name => t.dynamicChild i (String.ofList name)
  | _ => t.literalChild i segment

def descend (t : Trie H M) (i : NodeId) : List String → NodeId × Trie H M
  | [] => (i, t)
  | s :: ss => let (j, t) := t.child i s; descend t j ss

/-- The node of a path below a node. Missing nodes are made. -/
def nodeAt (t : Trie H M) (i : NodeId) (path : String) : NodeId × Trie H M :=
  t.descend i (Path.segments path)

def on (t : Trie H M) (i : NodeId) (method path : String) (h : H) : Option RouteTaken × Trie H M :=
  let (j, t) := t.nodeAt i path
  let n := t.node j
  if (n.method? method).isSome then (some (.methodAt method (Path.clean path)), t)
  else (none, t.setNode j { n with methods := n.methods ++ [(method, h)] })

def mount (t : Trie H M) (i : NodeId) (path : String) (h : H) : Option RouteTaken × Trie H M :=
  let (j, t) := t.nodeAt i path
  let n := t.node j
  if n.fallback.isSome then (some (.mount path), t)
  else (none, t.setNode j { n with fallback := some h })

/-- Registers a handler for a pattern of the table at a node. -/
def handle (t : Trie H M) (i : NodeId) (pattern : String) (h : H) : Option RouteTaken × Trie H M :=
  let n := t.node i
  match n.patterns.handle pattern h with
  | .error e => (some (.pattern e), t)
  | .ok patterns => (none, t.setNode i { n with patterns })

def addMiddlewares (t : Trie H M) (i : NodeId) (ms : List M) : Trie H M :=
  let n := t.node i
  t.setNode i { n with middlewares := n.middlewares ++ ms }

/-! ## Merging

Children and handlers are taken in the order in which the source has got them, which is one of the orders
that a map may have them in. -/

/-- Shares the literal children that the target does not have; gives the pairs that both have. -/
def mergeLiterals (n : Node H M) : List (String × NodeId) → Node H M × List (NodeId × NodeId)
  | [] => (n, [])
  | (s, j) :: ls =>
    match n.literal? s with
    | some i =>
      let (n, pairs) := mergeLiterals n ls
      (n, (i, j) :: pairs)
    | none => mergeLiterals { n with literals := n.literals ++ [(s, j)] } ls

def mergeDynamic (n : Node H M) : Option DynamicChild → Node H M × List (NodeId × NodeId)
  | none => (n, [])
  | some d =>
    match n.dynamic with
    | none => ({ n with dynamic := some d }, [])
    | some e => ({ n with dynamic := some { e with names := addNames e.names d.names } }, [(e.node, d.node)])

def mergeMethods (n : Node H M) : List (String × H) → Option RouteTaken × Node H M
  | [] => (none, n)
  | (m, h) :: ms =>
    if (n.method? m).isSome then (some (.method m), n)
    else mergeMethods { n with methods := n.methods ++ [(m, h)] } ms

def mergeFallback (n : Node H M) : Option H → Option RouteTaken × Node H M
  | none => (none, n)
  | some h => if n.fallback.isSome then (some .fallback, n) else (none, { n with fallback := some h })

/-- Merges what a node itself holds. What was merged before a clash stays merged. -/
def mergeContent (n s : Node H M) : Option RouteTaken × Node H M :=
  match n.patterns.merge s.patterns with
  | (some e, patterns) => (some (.pattern e), { n with patterns })
  | (none, patterns) =>
    match mergeMethods { n with patterns } s.methods with
    | (some e, n) => (some e, n)
    | (none, n) =>
      match mergeFallback n s.fallback with
      | (some e, n) => (some e, n)
      | (none, n) => (none, { n with middlewares := n.middlewares ++ s.middlewares })

/-- How a merge went: it may be done, stop at a clash, or never end. -/
inductive Merged where
  | done
  | clash (e : RouteTaken)
  | endless
  deriving DecidableEq, Repr

/-- Merges one node into another, then the pairs of children that both have, `depth` levels down. -/
def mergeDepth : (depth : Nat) → Trie H M → (target source : NodeId) → Merged × Trie H M
  | 0, t, _, _ => (.endless, t)
  | depth + 1, t, target, source =>
    if target = source then (.done, t)
    else
      let s := t.node source
      let (n, pairs) := mergeLiterals (t.node target) s.literals
      let (n, more) := mergeDynamic n s.dynamic
      match mergeContent n s with
      | (some e, n) => (.clash e, t.setNode target n)
      | (none, n) => mergePairs depth (t.setNode target n) (pairs ++ more)
where
  mergePairs (depth : Nat) (t : Trie H M) : List (NodeId × NodeId) → Merged × Trie H M
    | [] => (.done, t)
    | (i, j) :: pairs =>
      match mergeDepth depth t i j with
      | (.done, t) => mergePairs depth t pairs
      | r => r

def weight (t : Trie H M) : Nat := t.nodes.foldr (fun n w => n.weight + w) 0

/-- A merge makes no nodes, and a node only gains what some node has. So a merge that goes further down
comes back to a pair that it is merging, with nothing gained in between, and goes down for ever. -/
def mergeLimit (t : Trie H M) : Nat := (t.size * t.weight + 1) * (t.size * t.size) + 1

def merge (t : Trie H M) (target source : NodeId) : Merged × Trie H M :=
  mergeDepth t.mergeLimit t target source

def mountRouter (t : Trie H M) (i : NodeId) (path : String) (router : NodeId) :
    Merged × Trie H M :=
  let (j, t) := t.nodeAt i path
  t.merge j router

/-! ## Dispatch -/

/-- The handler for a request, and what it gets to see: how far the path is routed, the parameters,
and the middlewares around it, the outermost first. A handler of a pattern table gets the path as it
was at its node. -/
structure Route (H M : Type) where
  handler : H
  routing : PathCursor
  params : PathParams
  middlewares : List M
  rewound : Bool

/-- The state of a walk: the node, what has been passed, and the deepest pattern that matched. -/
structure Walk (H M : Type) where
  node : NodeId
  passed : List String
  params : PathParams
  middlewares : List M
  rewind : Option (Route H M)

/-- Collects the middlewares of a node and its pattern for the rest of the path. -/
def visit (t : Trie H M) (uri : String) (left : List String) (w : Walk H M) : Walk H M :=
  let n := t.node w.node
  let middlewares := w.middlewares ++ n.middlewares
  let cursor : PathCursor := ⟨uri, w.passed, left⟩
  match n.patterns.lookup cursor.pathLeft with
  | some h => { w with middlewares, rewind := some ⟨h, cursor, w.params, middlewares, true⟩ }
  | none => { w with middlewares }

/-- Ends a walk at a node with the handler found there, or with the deepest pattern. -/
def settle (uri : String) (left : List String) (w : Walk H M) (found : Option H) :
    Option (Route H M) :=
  match found with
  | some h => some ⟨h, ⟨uri, w.passed, left⟩, w.params, w.middlewares, false⟩
  | none => w.rewind

/-- Walks down by literal children before dynamic ones. -/
def walk (t : Trie H M) (method uri : String) : List String → Walk H M → Option (Route H M)
  | [], w =>
    let w := t.visit uri [] w
    let n := t.node w.node
    settle uri [] w (n.method? method <|> n.fallback)
  | s :: left, w =>
    let w := t.visit uri (s :: left) w
    let n := t.node w.node
    match n.literal? s with
    | some j => walk t method uri left { w with node := j, passed := w.passed ++ [s] }
    | none =>
      match n.dynamic with
      | some d =>
        walk t method uri left { w with
          node := d.node
          passed := w.passed ++ [s]
          params := w.params.addAll d.names (Percent.decodeSegment s) }
      | none => settle uri (s :: left) w n.fallback

def dispatch (t : Trie H M) (root : NodeId) (method : String) (cursor : PathCursor)
    (params : PathParams) : Option (Route H M) :=
  t.walk method cursor.requestUri cursor.left ⟨root, cursor.passed, params, [], none⟩

end Trie

end WebResource
