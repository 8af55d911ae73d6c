import WebResource.Resource.Serve

namespace WebResource.Resource

/-!
# Resources as handlers

What a resource asks for is answered by its operations, its hooks and its nested routes. Panics in
any of them become error responses.
-/

variable {S E I : Type}

/-- The answer for an operation that the resource does not have, and therefore never asks for. -/
def missing {α : Type} : Act S α := .panic (.text "Operation is not offered")

/-- Answers a call. Without a hook the context stays as it is. -/
def answer (r : Resource S E I) (routers : NodeId → Service S) :
    (q : Call S E I) → Act S (Call.Answer q)
  | .create c e => match r.operations.create with
    | some f => f c e
    | none => missing
  | .index c => match r.operations.index with
    | some f => f c
    | none => missing
  | .find c i => match r.operations.find with
    | some f => f c i
    | none => missing
  | .update c e => match r.operations.update with
    | some f => f c e
    | none => missing
  | .destroy c i => match r.operations.destroy with
    | some f => f c i
    | none => missing
  | .destroyAll c => match r.operations.destroyAll with
    | some f => f c
    | none => missing
  | .prepareCollection c => match r.collectionHook with
    | some f => f c
    | none => .done (.ok c)
  | .prepareResource c i => match r.resourceHook with
    | some f => f c i
    | none => .done (.ok c)
  | .delegate request => match r.routes with
    | some h => h.serve routers request
    | none => missing
  | .release f => Act.modify f

def service (r : Resource S E I) (routers : NodeId → Service S) : Service S := fun request =>
  (r.serve request).interpret (r.answer routers)

def handler (r : Resource S E I) : Handler S := ⟨none, fun routers => Handler.recovering (r.service routers)⟩

end WebResource.Resource
