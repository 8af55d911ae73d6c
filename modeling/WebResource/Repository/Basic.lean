import WebResource.Context.Basic
import WebResource.Prog

namespace WebResource

/-!
# Repositories

What persistence offers to a resource: up to six operations, each of which may be missing.
-/

inductive StorageErrorKind where
  | alreadyExists
  | backend
  | forbidden
  | invalidInput
  | notFound
  deriving DecidableEq, Repr

structure StorageError where
  kind : StorageErrorKind
  message : String
  deriving DecidableEq, Repr

namespace StorageErrorKind

def code : StorageErrorKind → String
  | alreadyExists => "already_exists"
  | backend => "backend"
  | forbidden => "forbidden"
  | invalidInput => "invalid"
  | notFound => "not_found"

def ofCode (code : String) : Option StorageErrorKind :=
  [alreadyExists, backend, forbidden, invalidInput, notFound].find? (·.code == code)

theorem ofCode_code (k : StorageErrorKind) : ofCode k.code = some k := by
  cases k <;> decide

def toErrorKind : StorageErrorKind → ErrorKind
  | alreadyExists => .entityAlreadyExists
  | backend => .internalServerError
  | forbidden => .forbidden
  | invalidInput => .invalidRequestBody
  | notFound => .entityNotFound

end StorageErrorKind

namespace StorageError

def toApi (e : StorageError) : ApiError := ⟨e.kind.toErrorKind, e.message⟩

end StorageError

/-- Replaces the first element that satisfies a test. -/
def Repository.replaceFirst {α : Type} (p : α → Bool) (a : α) : List α → Option (List α)
  | [] => none
  | x :: xs => if p x then some (a :: xs) else (replaceFirst p a xs).map (x :: ·)

/-- What fetching the next entity of a stream gives. -/
inductive Fetched (E : Type) where
  | entity (e : E)
  | error (e : StorageError)
  | panic (p : Payload)

/-- A stream of entities over the state `S`: what will be fetched, and how the stream is released
once it is dropped. -/
structure EntityStream (S E : Type) where
  items : List (Fetched E)
  release : S → S

def EntityStream.zoom {S T E : Type} (view : T → S) (put : S → T → T) (s : EntityStream S E) :
    EntityStream T E :=
  ⟨s.items, fun t => put (s.release (view t)) t⟩

/-- The operations of a resource over the state `S`. Those that are missing are not allowed. -/
structure Operations (S E I : Type) where
  create : Option (Context → E → Act S (Except StorageError E))
  index : Option (Context → Act S (EntityStream S E))
  find : Option (Context → I → Act S (Except StorageError (Option E)))
  update : Option (Context → E → Act S (Except StorageError Unit))
  destroy : Option (Context → I → Act S (Except StorageError Unit))
  destroyAll : Option (Context → Act S (Except StorageError Unit))

namespace Operations

variable {S E I : Type}

def none : Operations S E I := ⟨.none, .none, .none, .none, .none, .none⟩

/-- Fills the missing operations from others. -/
def orElse (ops others : Operations S E I) : Operations S E I where
  create := ops.create <|> others.create
  index := ops.index <|> others.index
  find := ops.find <|> others.find
  update := ops.update <|> others.update
  destroy := ops.destroy <|> others.destroy
  destroyAll := ops.destroyAll <|> others.destroyAll

def zoom {T : Type} (view : T → S) (put : S → T → T) (ops : Operations S E I) :
    Operations T E I where
  create := ops.create.map fun f c e => (f c e).zoom view put
  index := ops.index.map fun f c => ((f c).zoom view put).bind fun s => .done (s.zoom view put)
  find := ops.find.map fun f c i => (f c i).zoom view put
  update := ops.update.map fun f c e => (f c e).zoom view put
  destroy := ops.destroy.map fun f c i => (f c i).zoom view put
  destroyAll := ops.destroyAll.map fun f c => (f c).zoom view put

end Operations

end WebResource
