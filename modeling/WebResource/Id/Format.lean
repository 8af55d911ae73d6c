import WebResource.Text.Integer
import WebResource.Text.Uuid

namespace WebResource

/-!
# Identifiers in paths

A format writes an identifier as the text of a path segment and reads it back. Texts and signed
integers have one by default, other types need one of their own.
-/

inductive IdError where
  | invalid (reason : String)
  | notImplemented (type : String)
  deriving DecidableEq, Repr

namespace IdError

def code : IdError → String
  | .invalid _ => "invalid"
  | .notImplemented _ => "not_implemented"

def message : IdError → String
  | .invalid r => r
  | .notImplemented t => s!"No ID conversion available for {t}"

end IdError

structure IdFormat (I : Type) where
  format : I → Except IdError String
  parse : String → Except IdError I

namespace IdFormat

variable {I : Type}

def text : IdFormat String := ⟨.ok, .ok⟩

def signed (r : IntRange) (name : String) : IdFormat Int where
  format i := .ok (toString i)
  parse raw :=
    match r.read raw with
    | .ok i => .ok i
    | .error e => .error (.invalid s!"Invalid {name} '{raw}': {e.message}")

def missing (type : String) : IdFormat I :=
  ⟨fun _ => .error (.notImplemented type), fun _ => .error (.notImplemented type)⟩

/-- The format of a type whose values can be written and read. -/
def ofText (write : I → String) (read : String → Except String I) : IdFormat I where
  format i := .ok (write i)
  parse raw :=
    match read raw with
    | .ok i => .ok i
    | .error e => .error (.invalid e)

def ofIntText (r : IntRange) : IdFormat Int :=
  ofText toString fun raw => (r.read raw).mapError NumberError.message

def readBool (raw : String) : Except String Bool :=
  if raw = "true" then .ok true
  else if raw = "false" then .ok false
  else .error "provided string was not `true` or `false`"

def ofBoolText : IdFormat Bool := ofText (fun b => if b then "true" else "false") readBool

def readChar (raw : String) : Except String Char :=
  match raw.toList with
  | [] => .error "cannot parse char from empty string"
  | [c] => .ok c
  | _ => .error "too many characters in string"

def ofCharText : IdFormat Char := ofText (fun c => String.ofList [c]) readChar

def uuid : IdFormat Uuid :=
  ofText Uuid.toText fun raw => (Uuid.parse raw).mapError Uuid.ParseError.message

end IdFormat

end WebResource
