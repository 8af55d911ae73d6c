import WebResource.Document.Field
import WebResource.Id.Format

namespace WebResource

/-!
# Identifiers in entities

A lens reads the identifier of an entity and sets it. The lens of a field works on the document of
the entity: setting writes the field and reads the entity back, so it either succeeds
or leaves the entity as it is.
-/

/-- A type of identifiers, with its documents. -/
class Identifier (I : Type) where
  toJson : I → Json
  ofJson : Json → Except TypeError I
  same : I → I → Bool

instance : Identifier String := ⟨.str, Scalar.text.read, (· == ·)⟩

instance : Identifier Int := ⟨.int, (Scalar.integer .i64 "i64").read, (· == ·)⟩

instance : Identifier Uuid := ⟨fun u => .str u.toText, Scalar.uuid.read, (· == ·)⟩

instance : Identifier Json := ⟨id, .ok, fun a b => a.render == b.render⟩

structure IdLens (E I : Type) where
  get : E → Option I
  set : I → E → Except IdError E

namespace IdLens

variable {E I : Type} [Document E] [Identifier I]

/-- The identifier in a document; a field that is null or of another type holds none. -/
def getField (name : String) (e : E) : Option I :=
  match (Document.toJson e).get? name with
  | none => none
  | some .null => none
  | some j => (Identifier.ofJson j).toOption

def setField (name : String) (i : I) (e : E) : Except IdError E :=
  match Document.toJson e with
  | .obj fs =>
    match Document.read (.obj (Json.insertField name (Identifier.toJson i) fs)) with
    | .ok e => .ok e
    | .error x => .error (.invalid x.message)
  | _ => .error (.invalid s!"Cannot set field {name} in a non-object entity")

def byField (name : String) : IdLens E I := ⟨getField name, setField name⟩

end IdLens

end WebResource
