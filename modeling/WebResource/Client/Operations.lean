import WebResource.Client.Basic

namespace WebResource.Client

/-!
# Operations on single entities

Each sends one request and turns the status of the response into a result. A response that says
that an entity is missing or exists already is a result of its own; any other failure is reported
with all that the server has said.
-/

variable {S E I : Type}

/-- Creates an entity and gives it as the server has stored it. -/
def create (k : Client S E I) (c : Context) (e : E) : Calling S E := do
  let c := k.contextHook c
  let url ← Calling.ofExcept id (k.collectionUrl c)
  let body ← k.encode c e
  let r ← k.send c "POST" url body
  if Status.isSuccess r.status then k.entityIn c r
  else if r.status = 409 then k.conflict url r
  else unexpected url r

def findById (k : Client S E I) (c : Context) (i : I) : Calling S (Option E) := do
  let c := k.contextHook c
  let url ← Calling.ofExcept id (k.entityUrl c i)
  let r ← k.send c "GET" url []
  if Status.isSuccess r.status then return some (← k.entityIn c r)
  else if r.status = 404 then
    discard r
    return none
  else unexpected url r

/-- The end of a call on an entity that has to exist. -/
def settle (k : Client S E I) (i : I) (url : String) (r : TransportResponse S) : Calling S Unit := do
  if Status.isSuccess r.status then discard r
  else if r.status = 404 then
    discard r
    throw (.notFound (← Calling.ofExcept .id (k.ids.format i)))
  else unexpected url r

/-- Replaces the stored entity that has the same identifier. -/
def update (k : Client S E I) (c : Context) (e : E) : Calling S Unit := do
  let c := k.contextHook c
  match k.idLens.get e with
  | none => throw .missingId
  | some i =>
    let url ← Calling.ofExcept id (k.entityUrl c i)
    let body ← k.encode c e
    k.settle i url (← k.send c "PUT" url body)

def deleteById (k : Client S E I) (c : Context) (i : I) : Calling S Unit := do
  let c := k.contextHook c
  let url ← Calling.ofExcept id (k.entityUrl c i)
  k.settle i url (← k.send c "DELETE" url [])

def deleteAll (k : Client S E I) (c : Context) : Calling S Unit := do
  let c := k.contextHook c
  let url ← Calling.ofExcept id (k.collectionUrl c)
  let r ← k.send c "DELETE" url []
  if Status.isSuccess r.status then discard r else unexpected url r

end WebResource.Client
