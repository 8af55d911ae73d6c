import WebResource.Codec.Lists
import WebResource.Json.Printer
import WebResource.Text.Form

namespace WebResource

/-!
# Codecs

A codec turns documents into bytes and back. A streaming codec also has a list format, in which
the documents of a list are written and read one at a time.
-/

structure Codec where
  marshal : Json → Except CodecError Bytes
  unmarshal : Bytes → Except CodecError Json
  streaming : Option ListFormat

namespace Codec

def readJson (bs : Bytes) : Except CodecError Json :=
  match Json.read bs with
  | .ok v => .ok v
  | .error e => .error (.decode e.message)

/-- JSON, with lists as arrays. -/
def json : Codec := ⟨fun v => .ok v.render, readJson, some .array⟩

/-- JSON, with lists as one document after another, each on a line. -/
def jsonLines : Codec := ⟨fun v => .ok v.render, readJson, some .lines⟩

/-- The text of a scalar in a form field. -/
def formScalar? : Json → Option String
  | .null => some ""
  | .bool b => some (if b then "true" else "false")
  | .int i => some (String.ofList (Json.intChars i))
  | .float f => some (String.ofList f.text)
  | .str s => some s
  | .arr _ => none
  | .obj _ => none

def formPairs : Json.Fields → Except CodecError (List (String × String))
  | [] => .ok []
  | (k, v) :: fs =>
    match formScalar? v with
    | none => .error (.encode s!"Field {k} is not a scalar and cannot be form-encoded")
    | some t => (formPairs fs).map ((k, t) :: ·)

def formMarshal : Json → Except CodecError Bytes
  | .obj fs => (formPairs fs).map Form.encode
  | _ => .error (.encode "Only objects can be form-encoded")

/-- Every field of a form is read as a string; the last of each name counts. -/
def formUnmarshal (bs : Bytes) : Except CodecError Json :=
  .ok (.ofFields ((Form.decode bs).map fun (k, v) => (k, .str v)))

/-- Forms: objects of scalars. Lists cannot be written. -/
def form : Codec := ⟨formMarshal, formUnmarshal, none⟩

end Codec

end WebResource
