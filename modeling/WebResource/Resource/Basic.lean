import WebResource.Env.Options
import WebResource.Id.Lens
import WebResource.Mapping
import WebResource.Repository.Basic
import WebResource.Router.Handler

namespace WebResource

/-!
# Resources

A resource serves a collection of entities of type `E`, identified by values of type `I`, below the
path at which it is mounted:

* `POST /`, `GET /` and `DELETE /` create an entity, list all and destroy all;
* `GET /:id`, `PUT /:id`, `PATCH /:id` and `DELETE /:id` show, replace and destroy one;
* paths below `/:id` belong to the nested routes.
-/

structure Resource (S E I : Type) where
  operations : Operations S E I
  mappings : Mappings E
  codecs : CodecTable
  ids : IdFormat I
  idLens : IdLens E I
  /-- Records the identifier of a request in its context. -/
  idKey : Option (I → Context → Context)
  /-- The path parameter under which the segment of the identifier is recorded. -/
  idPathParam : Option String
  collectionHook : Option (Context → Act S (Except ApiError Context))
  resourceHook : Option (Context → I → Act S (Except ApiError Context))
  routes : Option (Handler S)
  bodyReadLimit : Nat
  errorHandler : Option (ApiError → MediaCodec → String → Response S)

namespace Resource

variable {S E I : Type}

def new (mapping : Mapping E) (idLens : IdLens E I) (ids : IdFormat I) :
    Resource S E I where
  operations := .none
  mappings := .ofDefault mapping
  codecs := []
  ids := ids
  idLens := idLens
  idKey := none
  idPathParam := none
  collectionHook := none
  resourceHook := none
  routes := none
  bodyReadLimit := ResourceOptions.defaults.bodyReadLimit
  errorHandler := none

/-- A resource whose entities are their own documents, identified by the field `id`. -/
def plain [Document E] [Identifier I] (ids : IdFormat I) : Resource S E I :=
  new .identity (.byField "id") ids

def withOptions (o : ResourceOptions) (r : Resource S E I) : Resource S E I :=
  { r with bodyReadLimit := o.bodyReadLimit }

/-- An identifier for error messages; empty if it cannot be written. -/
def idText (r : Resource S E I) (i : I) : String := (r.ids.format i).toOption.getD ""

end Resource

end WebResource
