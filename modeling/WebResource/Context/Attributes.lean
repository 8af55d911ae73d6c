import WebResource.Context.Params
import WebResource.Json.Basic
import WebResource.Path

namespace WebResource

/-!
# Values that travel with a request

At most one value of each kind: how far the path has been routed, the path parameters, the query,
and values of the kinds that an application defines.
-/

structure Attributes where
  routing : Option PathCursor
  params : Option PathParams
  query : Option (List (String × String))
  /-- Values by the name of their kind. -/
  values : List (String × Json)

namespace Attributes

def empty : Attributes := ⟨none, none, none, []⟩

def value? (kind : String) (x : Attributes) : Option Json :=
  (x.values.find? (·.1 == kind)).map (·.2)

def insertValue (kind : String) (v : Json) (x : Attributes) : Attributes :=
  { x with values := (kind, v) :: x.values.filter (·.1 != kind) }

def pathParams (x : Attributes) : PathParams := x.params.getD .empty

def withParam (x : Attributes) (name value : String) : Attributes :=
  { x with params := some (x.pathParams.add name value) }

end Attributes

end WebResource
