import WebResource.Binary64.Shortest
import WebResource.Json.Printer
import WebResource.Text.Quoted

namespace WebResource

/-!
# Typed documents

A type of documents has a written form, with its fields in the order of their declaration, and two
ways of being read: from a JSON value, and from the fields of a form, where everything is text.
-/

/-- Why a value is no document of a type. -/
inductive TypeError where
  | invalidType (found : Json) (expected : String)
  | invalidValue (found : Json) (expected : String)
  | invalidLength (found : Nat) (expected : String)
  | missingField (name : String)
  | unknownVariant (name : String) (expected : List String)
  | other (reason : String)
  deriving Repr

namespace TypeError

def describe : Json → String
  | .null => "null"
  | .bool b => s!"boolean `{b}`"
  | .int i => s!"integer `{String.ofList (Json.intChars i)}`"
  | .float f => s!"floating point `{String.ofList f.text}`"
  | .str s => s!"string {Text.quoted s}"
  | .arr _ => "sequence"
  | .obj _ => "map"

def variants : List String → String
  | [] => "there are no variants"
  | [a] => s!"expected `{a}`"
  | [a, b] => s!"expected `{a}` or `{b}`"
  | names => "expected one of " ++ ", ".intercalate (names.map fun n => s!"`{n}`")

def message : TypeError → String
  | .invalidType j e => s!"invalid type: {describe j}, expected {e}"
  | .invalidValue j e => s!"invalid value: {describe j}, expected {e}"
  | .invalidLength n e => s!"invalid length {n}, expected {e}"
  | .missingField n => s!"missing field `{n}`"
  | .unknownVariant n es => s!"unknown variant `{n}`, {variants es}"
  | .other r => r

end TypeError

class Document (E : Type) where
  /-- The document with its fields in the order of their declaration. -/
  declared : E → Json
  read : Json → Except TypeError E
  readForm : List (String × String) → Option E

namespace Document

/-- A field that is left out where there is no value. -/
def optionalField (name : String) (j : Option Json) : Json.Fields :=
  match j with
  | some j => [(name, j)]
  | none => []

variable {E : Type} [Document E]

/-- The document as a JSON value, whose fields are in the order of their names. -/
def toJson (e : E) : Json :=
  match declared e with
  | .obj fs => .ofFields fs
  | j => j

def textFields : Json.Fields → Option (List (String × String))
  | [] => some []
  | (k, .str s) :: fs => (textFields fs).map ((k, s) :: ·)
  | _ => none

/-- Reads a document that may have come from a form: if its values do not have the types of the
fields but are all text, they are read as form fields. -/
def ofJson (j : Json) : Except TypeError E :=
  match read j with
  | .ok e => .ok e
  | .error x =>
    match j with
    | .obj fs =>
      match (textFields fs).bind readForm with
      | some e => .ok e
      | none => .error x
    | _ => .error x

end Document

/-- Any JSON value is a document. -/
instance : Document Json where
  declared := id
  read := .ok
  readForm ps := some (.ofFields (ps.map fun (k, v) => (k, .str v)))

end WebResource
