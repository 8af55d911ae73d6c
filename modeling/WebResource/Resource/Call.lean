import WebResource.Mapping
import WebResource.Message.Basic
import WebResource.Repository.Basic

namespace WebResource.Resource

/-!
# What a resource asks for

Serving a request is a program that asks whatever lies behind the resource: its operations, its
hooks and its nested routes.
-/

inductive Call (S E I : Type) where
  | create (c : Context) (e : E)
  | index (c : Context)
  | find (c : Context) (i : I)
  | update (c : Context) (e : E)
  | destroy (c : Context) (i : I)
  | destroyAll (c : Context)
  | prepareCollection (c : Context)
  | prepareResource (c : Context) (i : I)
  | delegate (request : Request)
  /-- Drops a stream of entities. -/
  | release (f : S → S)

variable {S E I α : Type}

namespace Call

@[reducible] def Answer : Call S E I → Type
  | create _ _ => Except StorageError E
  | index _ => EntityStream S E
  | find _ _ => Except StorageError (Option E)
  | update _ _ => Except StorageError Unit
  | destroy _ _ => Except StorageError Unit
  | destroyAll _ => Except StorageError Unit
  | prepareCollection _ => Except ApiError Context
  | prepareResource _ _ => Except ApiError Context
  | delegate _ => Response S
  | release _ => Unit

/-- The calls that may change what is stored. -/
def mutates : Call S E I → Bool
  | create _ _ => true
  | update _ _ => true
  | destroy _ _ => true
  | destroyAll _ => true
  | _ => false

end Call

/-- A program that may end with an error for the caller. -/
abbrev Serving (S E I : Type) := ExceptT ApiError (Prog (Call S E I) Call.Answer)

namespace Serving

def tell (r : LogRecord) : Serving S E I Unit := ExceptT.lift (Prog.tell r)

def ask (q : Call S E I) : Serving S E I q.Answer := ExceptT.lift (Prog.call q)

def panic (p : Payload) : Serving S E I α := ExceptT.lift (.panic p)

def ofExcept : Except ApiError α → Serving S E I α
  | .ok a => pure a
  | .error e => throw e

def mapped (toError : String → ApiError) : Mapped α → Serving S E I α
  | .ok a => pure a
  | .refused why => throw (toError why)
  | .panicked p => panic p

/-- The result of an operation. Failures of the backend are logged. -/
def persisted : Except StorageError α → Serving S E I α
  | .ok a => pure a
  | .error e => do
    if e.kind = .backend then tell (.error s!"Backend error: {e.message}")
    throw e.toApi

/-- The result of an operation on one entity, which the caller knows by a description. -/
def persistedFor (description : String) : Except StorageError α → Serving S E I α
  | .ok a => pure a
  | .error e => if e.kind = .notFound then throw ⟨.entityNotFound, description⟩ else persisted (.error e)

end Serving

end WebResource.Resource
