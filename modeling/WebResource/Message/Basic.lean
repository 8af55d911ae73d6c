import WebResource.Context.Attributes
import WebResource.Log
import WebResource.Media
import WebResource.Message.Status
import WebResource.Message.Uri
import WebResource.Negotiation
import WebResource.Problem

namespace WebResource

/-!
# Requests and responses

The body of a request is a list of chunks, each of which may fail to be read. The body of a
response is produced frame by frame while it is read; what backs it is released with the last
frame, or when the body is dropped before.
-/

structure Request where
  method : String
  uri : Uri
  headers : Headers
  chunks : List (Except String Bytes)
  attributes : Attributes

namespace Request

def path (r : Request) : String := r.uri.path

/-- How far the request has been routed; not at all if it has met no router yet. -/
def routing (r : Request) : PathCursor := r.attributes.routing.getD (.start r.path)

end Request

/-- A piece of a body and what is logged while it is produced. -/
structure Frame where
  data : Bytes
  logs : List LogRecord
  deriving DecidableEq, Repr

/-- A response served over the state `S`. -/
structure Response (S : Type) where
  status : Nat
  headers : Headers
  frames : List Frame
  release : S → S

namespace Response

variable {S : Type}

def contentType (r : Response S) : Option Bytes := r.headers.first? "content-type"

/-- A body that is there as a whole; without bytes there is no frame either. -/
def whole (bs : Bytes) : List Frame := if bs.isEmpty then [] else [⟨bs, []⟩]

def plain (status : Nat) : Response S := ⟨status, [], [], id⟩

def ofBytes (status : Nat) (mediaType : String) (body : Bytes) : Response S :=
  ⟨status, [("content-type", Utf8.encode mediaType)], whole body, id⟩

def bytes (r : Response S) : Bytes := r.frames.flatMap (·.data)

def logs (r : Response S) : List LogRecord := r.frames.flatMap (·.logs)

/-- The response to one who reads at most so many frames of it. -/
def upTo (limit : Option Nat) (r : Response S) : Response S :=
  match limit with
  | some n => { r with frames := r.frames.take n }
  | none => r

end Response

namespace ProblemDetails

def response {S : Type} (p : ProblemDetails) : Response S :=
  .ofBytes (if Status.isValid p.status then p.status else 500) Media.problemJson
    (Document.declared p).render

end ProblemDetails

namespace ApiError

def response {S : Type} (e : ApiError) : Response S := (e.toProblem "").response

/-- The media type of a problem document where `mediaType` is wanted. -/
def problemMedia (mediaType : String) : String :=
  if mediaType = Media.json then Media.problemJson else mediaType

/-- The problem document in the negotiated codec, or in JSON with a log record where the codec
cannot write it. -/
def render {S : Type} (e : ApiError) (n : MediaCodec) (instanceUri : String) :
    List LogRecord × Response S :=
  let problem := e.toProblem instanceUri
  match n.codec.marshal (Document.toJson problem) with
  | .ok body => ([], .ofBytes e.kind.status (problemMedia n.mediaType) body)
  | .error x =>
    ([.error s!"Cannot encode problem as {n.mediaType}: {x.message}"], problem.response)

end ApiError

end WebResource
