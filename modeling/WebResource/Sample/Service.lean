import WebResource.Resource.Handler
import WebResource.Sample.Store

namespace WebResource.Sample

/-!
# A service of projects and notes

Projects are served below `/api/v1/projects`, and the notes of a project below the project.
-/

namespace Service

def projectsPath : String := "/api/v1/projects"

/-- Notes are exchanged without their project, which is that of the request. -/
def noteMapping : Mapping Note :=
  .through (D := NoteDocument) (fun _ n => .ok n.document) fun c d =>
    match Store.projectOf c with
    | .error e => .refused e.message
    | .ok project =>
      match Note.ofDocument project d with
      | .error why => .refused why
      | .ok n => .ok n

def noteId : IdLens Note Uuid := ⟨Note.id, fun i n => .ok { n with id := some i }⟩

/-- Lets only requests for a project that exists pass. -/
def requireProject (c : Context) (i : Uuid) : Act Store (Except ApiError Context) :=
  (Act.step fun s => (s.hasProject i, s)).bind fun found =>
    .done (if found then .ok c else .error ⟨.entityNotFound, s!"Project {i.toText} not found"⟩)

def notes (fresh : Nat → Uuid) (options : ResourceOptions) : Resource Store Note Uuid :=
  { (Resource.new noteMapping noteId .uuid : Resource Store Note Uuid) with
    operations := Store.noteOperations fresh }.withOptions options

def projects (fresh : Nat → Uuid) (options : ResourceOptions) (routes : Handler Store) :
    Resource Store Project Uuid :=
  { (Resource.plain .uuid : Resource Store Project Uuid) with
    operations := Store.projectOperations fresh
    idPathParam := some Store.projectParam
    resourceHook := some requireProject
    routes := some routes }.withOptions options

/-- Logs every request with the status of its response. -/
def logRequests : Middleware Store := fun next => .ok fun request =>
  (next request).bind fun r =>
    .log (.info s!"{request.method} {request.path} -> {Status.text r.status}") (.done r)

/-- The routers of the service; the second part is the node that serves all requests. -/
def routers (fresh : Nat → Uuid) (options : ResourceOptions) : Routes Store × NodeId :=
  let (below, t) := (Trie.empty : Routes Store).addNode
  let (_, t) := Router.mount t below "/notes" (notes fresh options).handler
  let (root, t) := t.addNode
  let t := t.addMiddlewares root [logRequests]
  let (_, t) := Router.mount t root projectsPath (projects fresh options (.ofRouter below)).handler
  (t, root)

def serve (fresh : Nat → Uuid) (options : ResourceOptions) (request : Request) :
    Act Store (Response Store) :=
  let (t, root) := routers fresh options
  (Handler.ofRouter root).call t request

end Service

end WebResource.Sample
