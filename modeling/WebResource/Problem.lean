import WebResource.Document.Field
import WebResource.Text.Split

namespace WebResource

/-!
# Errors and their problem documents

The errors that a caller sees, each with a stable code and an HTTP status, and the problem document
that carries one over the wire: the code can be taken back from the document whatever base URL the
server puts in front of it.
-/

inductive ErrorKind where
  | entityAlreadyExists
  | entityNotFound
  | forbidden
  | internalServerError
  | invalidRequestBody
  | malformedIdInPath
  | methodNotAllowed
  | notAcceptable
  | pathNotFound
  | requestEntityTooLarge
  deriving DecidableEq, Repr

namespace ErrorKind

def all : List ErrorKind :=
  [entityAlreadyExists, entityNotFound, forbidden, internalServerError, invalidRequestBody,
    malformedIdInPath, methodNotAllowed, notAcceptable, pathNotFound, requestEntityTooLarge]

def code : ErrorKind → String
  | entityAlreadyExists => "entity-already-exists"
  | entityNotFound => "entity-not-found"
  | forbidden => "forbidden"
  | internalServerError => "internal-server-error"
  | invalidRequestBody => "invalid-request-body"
  | malformedIdInPath => "malformed-id-in-path"
  | methodNotAllowed => "rest-method-not-allowed"
  | notAcceptable => "not-acceptable"
  | pathNotFound => "path-not-found"
  | requestEntityTooLarge => "request-entity-too-large"

def title : ErrorKind → String
  | entityAlreadyExists => "Entity already exists"
  | entityNotFound => "Entity not found"
  | forbidden => "Forbidden"
  | internalServerError => "Internal server error"
  | invalidRequestBody => "Invalid request body"
  | malformedIdInPath => "Malformed ID in path"
  | methodNotAllowed => "Method not allowed"
  | notAcceptable => "Not acceptable"
  | pathNotFound => "Path not found"
  | requestEntityTooLarge => "Request entity too large"

def status : ErrorKind → Nat
  | entityAlreadyExists => 409
  | entityNotFound => 404
  | forbidden => 403
  | internalServerError => 500
  | invalidRequestBody => 400
  | malformedIdInPath => 400
  | methodNotAllowed => 405
  | notAcceptable => 406
  | pathNotFound => 404
  | requestEntityTooLarge => 413

def ofCode (code : String) : Option ErrorKind := all.find? (·.code == code)

theorem ofCode_code (k : ErrorKind) : ofCode k.code = some k := by
  cases k <;> decide

end ErrorKind

structure ApiError where
  kind : ErrorKind
  detail : String
  deriving DecidableEq, Repr

namespace ApiError

def message (e : ApiError) : String :=
  if e.detail = "" then e.kind.title else s!"{e.kind.title}: {e.detail}"

end ApiError

/-- The type of a problem: the code of the error behind the URL under which it is documented. -/
structure ProblemType where
  baseUrl : Option String
  id : String
  deriving DecidableEq, Repr

namespace ProblemType

def render (t : ProblemType) : String :=
  match t.baseUrl with
  | some base => Text.dropEnd '/' base ++ "/" ++ t.id
  | none => t.id

/-- The code is what follows the last slash. -/
def parse (raw : String) : ProblemType :=
  match Text.cutLast '/' raw.toList with
  | some (base, id) => ⟨some (String.ofList base), String.ofList id⟩
  | none => ⟨none, raw⟩

end ProblemType

structure ProblemDetails where
  type : ProblemType
  title : String
  status : Nat
  detail : String
  instanceUri : String
  deriving DecidableEq, Repr

namespace ProblemDetails

def typeText : Scalar ProblemType where
  read
    | .str s => .ok (.parse s)
    | j => .error (.invalidType j "a problem type URI reference")
  readText s := some (.parse s)

def statusCode : Scalar Int := .integer .u16 "u16"

def typeField : Field ProblemType := .required "type" typeText
def titleField : Field String := .required "title" .text
def statusField : Field Int := .required "status" statusCode
def detailField : Field String := .defaulted "detail" .text ""
def instanceField : Field String := .defaulted "instance" .text ""

def read : Json → Except TypeError ProblemDetails :=
  readRecord "ProblemDetails" 5
    [typeField.entry, titleField.entry, statusField.entry, detailField.entry, instanceField.entry]
    fun src expected => do
      let type ← src.take expected 0 typeField
      let title ← src.take expected 1 titleField
      let status ← src.take expected 2 statusField
      let detail ← src.take expected 3 detailField
      let instanceUri ← src.take expected 4 instanceField
      return ⟨type, title, status.toNat, detail, instanceUri⟩

def readForm (ps : List (String × String)) : Option ProblemDetails := do
  let type ← typeField.ofForm ps
  let title ← titleField.ofForm ps
  let status ← statusField.ofForm ps
  let detail ← detailField.ofForm ps
  let instanceUri ← instanceField.ofForm ps
  return ⟨type, title, status.toNat, detail, instanceUri⟩

def unlessEmpty (s : String) : Option Json := if s = "" then none else some (.str s)

def declared (p : ProblemDetails) : Json :=
  .obj ([("type", .str p.type.render), ("title", .str p.title), ("status", .int p.status)] ++
    Document.optionalField "detail" (unlessEmpty p.detail) ++
    Document.optionalField "instance" (unlessEmpty p.instanceUri))

instance : Document ProblemDetails := ⟨declared, read, readForm⟩

/-- The error that a problem document describes, if its code is known. -/
def toError (p : ProblemDetails) : Option ApiError :=
  (ErrorKind.ofCode p.type.id).map fun k => ⟨k, p.detail⟩

end ProblemDetails

namespace ApiError

def toProblem (e : ApiError) (instanceUri : String) : ProblemDetails :=
  ⟨⟨none, e.kind.code⟩, e.kind.title, e.kind.status, e.detail, instanceUri⟩

end ApiError

end WebResource
