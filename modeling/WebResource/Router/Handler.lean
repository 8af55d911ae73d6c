import WebResource.Message.Basic
import WebResource.Prog
import WebResource.Router.Trie

namespace WebResource

/-!
# Handlers and routers

A handler serves requests as programs over the state `S`. It may pass a request on to a router,
which it knows by its node, so handlers and the trie that holds them can refer to each other.
-/

abbrev Service (S : Type) := Request → Act S (Response S)

structure Handler (S : Type) where
  /-- The node of the router that this handler is, if it is one. -/
  router : Option NodeId
  serve : (NodeId → Service S) → Service S

/-- Wraps a service; wrapping itself may panic. -/
abbrev Middleware (S : Type) := Service S → Except Payload (Service S)

abbrev Routes (S : Type) := Trie (Handler S) (Middleware S)

namespace Handler

variable {S : Type}

def ofService (s : Service S) : Handler S := ⟨none, fun _ => s⟩

def ofRouter (root : NodeId) : Handler S := ⟨some root, fun routers => routers root⟩

def renderError (e : ApiError) (request : Request) (instanceUri : String) : Act S (Response S) :=
  let (logs, response) := e.render (.forResponseTo request.headers []) instanceUri
  logs.foldr .log (.done response)

def recovering (s : Service S) : Service S := fun request =>
  (s request).attempt.bind fun
    | .ok response => .done response
    | .error p =>
      let e := p.toError
      .log (.error s!"Recovered from panic while serving {request.path}: {e.message}")
        (renderError e request request.path)

def recover (h : Handler S) : Handler S := ⟨none, fun routers => recovering (h.serve routers)⟩

/-- Serves a request by the pattern that its path matches. -/
def ofPatterns (m : PatternTable (Handler S)) : Handler S where
  router := none
  serve routers request :=
    match m.lookup request.path with
    | some h => h.serve routers request
    | none => .done (ApiError.response ⟨.pathNotFound, request.path⟩)

end Handler

namespace Router

variable {S : Type}

/-- The innermost service with the middlewares around it, the first one outermost. -/
def wrap (s : Service S) : List (Middleware S) → Except Payload (Service S)
  | [] => .ok s
  | m :: ms =>
    match wrap s ms with
    | .ok s => m s
    | .error p => .error p

/-- The request as the handler of a route sees it. Where its path cannot be put into its target, the
target stays. -/
def Route.request (r : Trie.Route (Handler S) (Middleware S)) (request : Request) : Request where
  method := request.method
  uri :=
    if r.rewound then (request.uri.withPath r.routing.pathLeft).getD request.uri else request.uri
  headers := request.headers
  chunks := request.chunks
  attributes := { request.attributes with routing := some r.routing, params := some r.params }

/-- Serves a request by one router, given the services of all. -/
def route (t : Routes S) (routers : NodeId → Service S) (root : NodeId) : Service S := fun request =>
  let cursor := request.routing
  match t.dispatch root request.method cursor request.attributes.pathParams with
  | none =>
    .log (.debug s!"No route for {request.method} {cursor.requestUri}")
      (Handler.renderError ⟨.pathNotFound, cursor.requestUri⟩ request cursor.requestUri)
  | some r =>
    match wrap (r.handler.serve routers) r.middlewares with
    | .ok s => s (Route.request r request)
    | .error p => .panic p

/-- The services of all routers, for requests that pass through at most so many of them. -/
def services (t : Routes S) : (depth : Nat) → NodeId → Service S
  | 0, _ => fun _ => .panic (.text "Routers pass a request on for ever")
  | depth + 1, root => Handler.recovering (route t (services t depth) root)

/-- A request that comes to a router again with as much path left would come for ever. -/
def passLimit (t : Routes S) (request : Request) : Nat := t.size * (request.routing.left.length + 1) + 1

end Router

namespace Handler

variable {S : Type}

/-- Serves a request by a handler over the routers of a trie. -/
def call (h : Handler S) (t : Routes S) : Service S := fun request =>
  h.serve (Router.services t (Router.passLimit t request)) request

end Handler

namespace Router

variable {S : Type}

/-- How a registration went. -/
abbrev Registered (S : Type) := Trie.Merged × Routes S

def registered (r : Option RouteTaken × Routes S) : Registered S :=
  match r with
  | (none, t) => (.done, t)
  | (some e, t) => (.clash e, t)

def on (t : Routes S) (root : NodeId) (method path : String) (h : Handler S) : Registered S :=
  registered (t.on root method path h)

/-- Mounts a handler below a path. A router is merged into the node of the path. -/
def mount (t : Routes S) (root : NodeId) (path : String) (h : Handler S) : Registered S :=
  match h.router with
  | some source => t.mountRouter root path source
  | none => registered (t.mount root path h)

/-- Registers a handler for a pattern. A router is merged into the node of the pattern. -/
def handle (t : Routes S) (root : NodeId) (pattern : String) (h : Handler S) : Registered S :=
  match h.router with
  | some source => t.mountRouter root pattern source
  | none => registered (t.handle root pattern h)

end Router

end WebResource
