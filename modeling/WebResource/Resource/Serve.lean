import WebResource.Resource.Basic
import WebResource.Resource.Body
import WebResource.Resource.Call
import WebResource.Resource.Listing

namespace WebResource.Resource

/-!
# Serving a request

The hook runs before anything else is done with a request. An operation that changes something runs
only once all that can be checked before it has been checked.
-/

variable {S E I α : Type}

def notAllowed (method : String) : ApiError := ⟨.methodNotAllowed, method⟩

def noContent (n : MediaCodec) : Response S := .ofBytes 204 n.mediaType []

def ofDocument (r : Resource S E I) (c : Context) (document : Json) (n : MediaCodec) : Serving S E I E :=
  .mapped (⟨.invalidRequestBody, ·⟩) ((r.mappings.get n.mediaType).ofDocument c document)

def entityResponse (r : Resource S E I) (c : Context) (status : Nat) (e : E) (n : MediaCodec) :
    Serving S E I (Response S) := do
  let document ← Serving.mapped (⟨.internalServerError, ·⟩) ((r.mappings.get n.mediaType).toDocument c e)
  match n.codec.marshal document with
  | .ok body => return .ofBytes status n.mediaType body
  | .error x => throw ⟨.internalServerError, x.message⟩

/-- Fails if the entity does not exist and that can be found out. -/
def requireExisting (r : Resource S E I) (c : Context) (i : I) : Serving S E I Unit := do
  if r.operations.find.isSome then
    match ← Serving.persisted (← Serving.ask (.find c i)) with
    | some _ => return ()
    | none => throw ⟨.entityNotFound, r.idText i⟩

def create (r : Resource S E I) (c : Context) (request : Request) (n out : MediaCodec) :
    Serving S E I (Response S) := do
  if r.operations.create.isNone then throw (notAllowed request.method)
  let document ← Serving.ofExcept (readDocument r.bodyReadLimit request n)
  let e ← r.ofDocument c document n
  let created ← Serving.persisted (← Serving.ask (.create c e))
  r.entityResponse c 201 created out

def index (r : Resource S E I) (c : Context) (out : MediaCodec) : Serving S E I (Response S) := do
  if r.operations.index.isNone then throw (notAllowed "GET")
  match out.codec.streaming with
  | none => throw ⟨.notAcceptable, s!"Cannot encode lists as {out.mediaType}"⟩
  | some format =>
    let stream : EntityStream S E ← Serving.ask (.index c)
    match Listing.start (r.mappings.get out.mediaType) c format stream.items with
    | .opened frames =>
      return { (Response.ofBytes 200 out.mediaType [] : Response S) with
        frames, release := stream.release }
    | .empty body =>
      Serving.ask (.release stream.release)
      return .ofBytes 200 out.mediaType body
    | .failed logs e =>
      Serving.ask (.release stream.release)
      logs.forM Serving.tell
      throw e
    | .panicked p =>
      Serving.ask (.release stream.release)
      Serving.panic p

def destroyAll (r : Resource S E I) (c : Context) (out : MediaCodec) : Serving S E I (Response S) := do
  if r.operations.destroyAll.isNone then throw (notAllowed "DELETE")
  Serving.persisted (← Serving.ask (.destroyAll c))
  return noContent out

def «show» (r : Resource S E I) (c : Context) (i : I) (out : MediaCodec) :
    Serving S E I (Response S) := do
  if r.operations.find.isNone then throw (notAllowed "GET")
  match ← Serving.persisted (← Serving.ask (.find c i)) with
  | some e => r.entityResponse c 200 e out
  | none => throw ⟨.entityNotFound, r.idText i⟩

/-- The identifier in the path decides which entity is replaced. -/
def update (r : Resource S E I) (c : Context) (i : I) (request : Request) (n out : MediaCodec) :
    Serving S E I (Response S) := do
  if r.operations.update.isNone then throw (notAllowed request.method)
  let document ← Serving.ofExcept (readDocument r.bodyReadLimit request n)
  r.requireExisting c i
  let e ← r.ofDocument c document n
  match r.idLens.set i e with
  | .error x => throw ⟨.internalServerError, s!"Cannot set ID: {x.message}"⟩
  | .ok e =>
    Serving.persistedFor (r.idText i) (← Serving.ask (.update c e))
    return noContent out

def destroy (r : Resource S E I) (c : Context) (i : I) (out : MediaCodec) :
    Serving S E I (Response S) := do
  if r.operations.destroy.isNone then throw (notAllowed "DELETE")
  r.requireExisting c i
  Serving.persistedFor (r.idText i) (← Serving.ask (.destroy c i))
  return noContent out

/-- The context of a request before the hooks. -/
def context (request : Request) : Context :=
  (Context.ofAttributes request.attributes).withQuery
    (Form.decode (Utf8.encode (request.uri.query.getD "")))

def serveCollection (r : Resource S E I) (request : Request) (n out : MediaCodec) :
    Serving S E I (Response S) := do
  let c ← Serving.ofExcept (← Serving.ask (.prepareCollection (context request)))
  if request.method = "POST" then r.create c request n out
  else if request.method = "GET" then r.index c out
  else if request.method = "DELETE" then r.destroyAll c out
  else throw (notAllowed request.method)

/-- The context of a request for one entity before the hook. -/
def resourceContext (r : Resource S E I) (request : Request) (segment : String) (i : I) : Context :=
  let c := context request
  let c := match r.idPathParam with
    | some name => c.withParam name segment
    | none => c
  match r.idKey with
  | some record => record i c
  | none => c

/-- The request as the nested routes see it. -/
def nested (request : Request) (c : Context) (cursor : PathCursor) : Request :=
  { request with attributes := { c.values with routing := some cursor } }

/-- Serves a request for one entity or for what is nested below it. -/
def serveResource (r : Resource S E I) (request : Request) (segment : String) (cursor : PathCursor)
    (n out : MediaCodec) : Serving S E I (Response S) := do
  match r.ids.parse segment with
  | .error x => throw ⟨.malformedIdInPath, x.message⟩
  | .ok i =>
    let c ← Serving.ofExcept (← Serving.ask (.prepareResource (r.resourceContext request segment i) i))
    if cursor.isExhausted then
      if request.method = "GET" then r.show c i out
      else if request.method = "PUT" ∨ request.method = "PATCH" then r.update c i request n out
      else if request.method = "DELETE" then r.destroy c i out
      else throw (notAllowed request.method)
    else if r.routes.isSome then Serving.ask (.delegate (nested request c cursor))
    else throw ⟨.pathNotFound, cursor.requestUri⟩

def perform (r : Resource S E I) (request : Request) (n out : MediaCodec) :
    Serving S E I (Response S) :=
  match request.routing.shift with
  | (none, _) => r.serveCollection request n out
  | (some segment, cursor) => r.serveResource request (Percent.decodeSegment segment) cursor n out

def renderError (r : Resource S E I) (e : ApiError) (out : MediaCodec) (instanceUri : String) :
    Prog (Call S E I) Call.Answer (Response S) :=
  match r.errorHandler with
  | some render => .done (render e out instanceUri)
  | none =>
    let (logs, response) := e.render out instanceUri
    logs.foldr .log (.done response)

/-- Serves a request. Errors become responses; panics do not. -/
def serve (r : Resource S E I) (request : Request) : Prog (Call S E I) Call.Answer (Response S) :=
  let n := MediaCodec.forRequest request.headers r.codecs
  let out := MediaCodec.forResponse request.headers r.codecs n
  (r.perform request n out).run.bind fun
    | .ok response => .done response
    | .error e =>
      .log (.debug s!"Request for {request.path} failed: {e.message}")
        (r.renderError e out request.path)

end WebResource.Resource
