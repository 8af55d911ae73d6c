import WebResource.Id.Lens
import WebResource.Mapping
import WebResource.Negotiation
import WebResource.Text.Percent
import WebResource.Transport.Basic

namespace WebResource

/-!
# Clients

A client for a collection that is served somewhere else. It speaks of entities and identifiers; what
goes over the wire are documents in the media type of its choice.
-/

inductive ClientError where
  | alreadyExists (detail : String)
  | codec (e : CodecError)
  | context (e : ContextError)
  | id (e : IdError)
  | mapping (e : MappingError)
  | missingId
  | missingParam (name : String)
  | notFound (id : String)
  | notStreamable (mediaType : String)
  | transport (e : TransportError)
  | unexpectedResponse (status : Nat) (url body : String)
  deriving DecidableEq, Repr

namespace ClientError

def code : ClientError → String
  | .alreadyExists _ => "already_exists"
  | .codec e => e.code
  | .context e => e.code
  | .id e => "id_" ++ e.code
  | .mapping e => e.code
  | .missingId => "missing_id"
  | .missingParam _ => "missing_param"
  | .notFound _ => "not_found"
  | .notStreamable _ => "not_streamable"
  | .transport e => e.code
  | .unexpectedResponse _ _ _ => "unexpected_response"

def message : ClientError → String
  | .alreadyExists d => s!"Entity already exists: {d}"
  | .codec e => e.message
  | .context e => e.message
  | .id e => e.message
  | .mapping e => e.message
  | .missingId => "Entity has no ID"
  | .missingParam n => s!"Missing path parameter '{n}'"
  | .notFound i => s!"Entity not found: {i}"
  | .notStreamable t => s!"Cannot decode lists of type {t}"
  | .transport e => e.message
  | .unexpectedResponse status url body =>
    s!"Unexpected response with status {Status.text status} from {url}: {body}"

def ofTransport : TransportError → ClientError
  | .context e => .context e
  | e => .transport e

end ClientError

structure Client (S E I : Type) where
  /-- The URL of the collection, whose `:name` segments stand for path parameters. -/
  baseUrl : String
  transport : Transport S
  mediaType : String
  codecs : CodecTable
  mappings : Mappings E
  ids : IdFormat I
  idLens : IdLens E I
  contextHook : Context → Context
  /-- Lists are read in full before their first entity is given. -/
  disableStreaming : Bool

namespace Client

variable {S E I : Type}

def new (baseUrl : String) (transport : Transport S) (mapping : Mapping E) (idLens : IdLens E I)
    (ids : IdFormat I) : Client S E I where
  baseUrl := baseUrl
  transport := transport
  mediaType := Media.json
  codecs := []
  mappings := .ofDefault mapping
  ids := ids
  idLens := idLens
  contextHook := id
  disableStreaming := false

def withMediaType (mediaType : String) (c : Client S E I) : Client S E I :=
  { c with mediaType := Media.canonical mediaType }

/-! ## URLs -/

/-- A segment of a pattern with the value of its parameter, if it stands for one. -/
def expandSegment (c : Context) (segment : List Char) : Except ClientError (List Char) :=
  match segment with
  | ':' :: name =>
    match c.param? (String.ofList name) with
    | some value => .ok (Percent.encodeSegment value).toList
    | none => .error (.missingParam (String.ofList name))
  | _ => .ok segment

def expandPattern (pattern : String) (c : Context) : Except ClientError String :=
  ((Text.splitOn '/' pattern.toList).mapM (expandSegment c)).map fun segments =>
    String.ofList (Text.joinWith '/' segments)

def collectionUrl (k : Client S E I) (c : Context) : Except ClientError String :=
  expandPattern k.baseUrl c

/-- The URL of one entity: its escaped identifier behind the URL of the collection. -/
def entityUrl (k : Client S E I) (c : Context) (i : I) : Except ClientError String :=
  match k.collectionUrl c with
  | .error e => .error e
  | .ok base =>
    match k.ids.format i with
    | .error e => .error (.id e)
    | .ok text => .ok (Text.dropEnd '/' base ++ "/" ++ Percent.encodeSegment text)

/-! ## Codecs -/

def codec (k : Client S E I) : MediaCodec := .lookupOrJson k.mediaType k.codecs

/-- The codec of a response: that of its media type, or that of requests if it has none. -/
def responseCodec (k : Client S E I) (hs : Headers) : MediaCodec :=
  match Media.contentType hs with
  | some mediaType => .lookupOrJson mediaType k.codecs
  | none => k.codec

end Client

/-! ## Calls -/

/-- A call that may end with an error of the client. -/
abbrev Calling (S : Type) := ExceptT ClientError (Act (Timed S))

namespace Calling

variable {S α : Type}

def lift (x : Act (Timed S) α) : Calling S α := ExceptT.lift x

def ofExcept {ε : Type} (toError : ε → ClientError) : Except ε α → Calling S α
  | .ok a => pure a
  | .error e => throw (toError e)

def mapped (toError : String → MappingError) : Mapped α → Calling S α
  | .ok a => pure a
  | .refused why => throw (.mapping (toError why))
  | .panicked p => ExceptT.lift (.panic p)

end Calling

namespace Client

variable {S E I : Type}

/-- The body of a request that carries an entity. -/
def encode (k : Client S E I) (c : Context) (e : E) : Calling S Bytes := do
  let n := k.codec
  let document ← Calling.mapped .toDocument ((k.mappings.get n.mediaType).toDocument c e)
  Calling.ofExcept .codec (n.codec.marshal document)

def buildRequest (method url mediaType : String) (body : Bytes) :
    Except TransportError TransportRequest :=
  let media := Utf8.encode mediaType
  match Uri.parse url with
  | .error e => .error (.invalidRequest e.message)
  | .ok uri =>
    if Headers.isSendable media then
      .ok ⟨method, uri, [("content-type", media), ("accept", media)], body⟩
    else .error (.invalidRequest "failed to parse header value")

def send (k : Client S E I) (c : Context) (method url : String) (body : Bytes) :
    Calling S (TransportResponse S) := do
  Calling.lift (Prog.tell (.debug s!"Sending {method} {url}"))
  let request ← Calling.ofExcept .transport (buildRequest method url k.codec.mediaType body)
  Calling.ofExcept .ofTransport (← Calling.lift (k.transport c request))

def entityIn (k : Client S E I) (c : Context) (r : TransportResponse S) : Calling S E := do
  let body ← Calling.ofExcept .ofTransport (← Calling.lift (r.body.cancellable c).bytes)
  let n := k.responseCodec r.headers
  let document ← Calling.ofExcept .codec (n.codec.unmarshal body)
  Calling.mapped .ofDocument ((k.mappings.get n.mediaType).ofDocument c document)

/-- The error that a response describes by a problem document. -/
def problemOf (k : Client S E I) (hs : Headers) (body : Bytes) : Option ApiError :=
  match (k.responseCodec hs).codec.unmarshal body with
  | .error _ => none
  | .ok document => ((Document.ofJson document : Except TypeError ProblemDetails).toOption).bind (·.toError)

def unexpected {α : Type} (url : String) (r : TransportResponse S) : Calling S α := do
  match ← Calling.lift r.body.bytes with
  | .ok body => throw (.unexpectedResponse r.status url (Utf8.decodeLossy body))
  | .error e => throw (.unexpectedResponse r.status url s!"<unreadable body: {e.message}>")

/-- Gives up a response of which only the status counts. -/
def discard (r : TransportResponse S) : Calling S Unit := Calling.lift r.body.drop

/-- The error for a creation that met a conflict. -/
def conflict {α : Type} (k : Client S E I) (url : String) (r : TransportResponse S) : Calling S α := do
  match ← Calling.lift r.body.bytes with
  | .error _ => throw (.alreadyExists url)
  | .ok body =>
    match k.problemOf r.headers body with
    | some ⟨.entityAlreadyExists, detail⟩ => throw (.alreadyExists (if detail = "" then url else detail))
    | _ => throw (.alreadyExists url)

end Client

end WebResource
