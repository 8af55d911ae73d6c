import WebResource.Id.Lens
import WebResource.Mapping
import WebResource.Repository.Memory

namespace WebResource.Sample

/-!
# Sample entities

Small types of entities, their documents and their identifiers, and the labels into which some of
them can be mapped.
-/

/-! ## Foo -/

structure Foo where
  id : Option String
  foo : String
  deriving DecidableEq, Repr

namespace Foo

def idField : Field (Option String) := .defaulted "id" (.optional .text) none
def fooField : Field String := .required "foo" .text

def declared (e : Foo) : Json :=
  .obj (Document.optionalField "id" (e.id.map .str) ++ [("foo", .str e.foo)])

def read : Json → Except TypeError Foo :=
  readRecord "Foo" 2 [idField.entry, fooField.entry] fun src expected => do
    let id ← src.take expected 0 idField
    let foo ← src.take expected 1 fooField
    return ⟨id, foo⟩

def readForm (ps : List (String × String)) : Option Foo := do
  let id ← idField.ofForm ps
  let foo ← fooField.ofForm ps
  return ⟨id, foo⟩

instance : Document Foo := ⟨declared, read, readForm⟩

def identity : Identity Foo String :=
  ⟨Foo.id, fun i e => { e with id := some i }, fun n => s!"foo-{n}"⟩

end Foo

/-! ## Counter -/

structure Counter where
  id : Option Int
  name : String
  count : Int
  enabled : Bool
  deriving DecidableEq, Repr

namespace Counter

def number : Scalar Int := .integer .i64 "i64"

def idField : Field (Option Int) := .defaulted "id" (.optional number) none
def nameField : Field String := .required "name" .text
def countField : Field Int := .required "count" number
def enabledField : Field Bool := .required "enabled" .bool

def declared (e : Counter) : Json :=
  .obj (Document.optionalField "id" (e.id.map .int) ++
    [("name", .str e.name), ("count", .int e.count), ("enabled", .bool e.enabled)])

def read : Json → Except TypeError Counter :=
  readRecord "Counter" 4 [idField.entry, nameField.entry, countField.entry, enabledField.entry]
    fun src expected => do
      let id ← src.take expected 0 idField
      let name ← src.take expected 1 nameField
      let count ← src.take expected 2 countField
      let enabled ← src.take expected 3 enabledField
      return ⟨id, name, count, enabled⟩

def readForm (ps : List (String × String)) : Option Counter := do
  let id ← idField.ofForm ps
  let name ← nameField.ofForm ps
  let count ← countField.ofForm ps
  let enabled ← enabledField.ofForm ps
  return ⟨id, name, count, enabled⟩

instance : Document Counter := ⟨declared, read, readForm⟩

def identity : Identity Counter Int :=
  ⟨Counter.id, fun i e => { e with id := some i }, fun n => (n : Int) * 10⟩

end Counter

/-! ## Documents of any shape -/

namespace Doc

def id (j : Json) : Option String :=
  match j.get? "id" with
  | some (.str s) => some s
  | _ => none

/-- Only an object can be given an identifier. -/
def setId (i : String) : Json → Json
  | .obj fs => .obj (Json.insertField "id" (.str i) fs)
  | j => j

def identity : Identity Json String := ⟨id, setId, fun n => s!"doc {n}"⟩

end Doc

/-! ## Labels -/

structure Label where
  id : Option String
  label : String
  deriving DecidableEq, Repr

namespace Label

def idField : Field (Option String) := .defaulted "id" (.optional .text) none
def labelField : Field String := .required "label" .text

def declared (e : Label) : Json :=
  .obj (Document.optionalField "id" (e.id.map .str) ++ [("label", .str e.label)])

def read : Json → Except TypeError Label :=
  readRecord "Label" 2 [idField.entry, labelField.entry] fun src expected => do
    let id ← src.take expected 0 idField
    let label ← src.take expected 1 labelField
    return ⟨id, label⟩

def readForm (ps : List (String × String)) : Option Label := do
  let id ← idField.ofForm ps
  let label ← labelField.ofForm ps
  return ⟨id, label⟩

instance : Document Label := ⟨declared, read, readForm⟩

end Label

namespace Foo

def toLabel (e : Foo) : Mapped Label :=
  if e.foo = "unmappable" then .refused "Cannot map unmappable"
  else if e.foo = "explode" then .panicked (.text "Exploded while mapping")
  else .ok ⟨e.id, e.foo⟩

def ofLabel (l : Label) : Mapped Foo :=
  if l.label = "" then .refused "Label cannot be empty" else .ok ⟨l.id, l.label⟩

def labelMapping : Mapping Foo := .through (fun _ => toLabel) (fun _ => ofLabel)

end Foo

namespace Counter

def toLabel (e : Counter) : Mapped Label := .ok ⟨e.id.map toString, e.name⟩

def ofLabel (l : Label) : Mapped Counter := .ok ⟨none, l.label, 0, false⟩

def labelMapping : Mapping Counter := .through (fun _ => toLabel) (fun _ => ofLabel)

end Counter

namespace Doc

def labelMapping : Mapping Json :=
  .through (D := Label) (fun _ _ => .refused "Documents have no label")
    (fun _ _ => .refused "Documents have no label")

end Doc

/-! ## A record of many types -/

inductive Color where
  | red
  | green
  deriving DecidableEq, Repr

structure Rich where
  a : Int
  b : Option Binary64
  c : Char
  d : Color
  e : List Int
  deriving DecidableEq, Repr

namespace Rich

def aField : Field Int := .required "a" (.integer .u8 "u8")
def bField : Field (Option Binary64) := .nullable "b" .optionalDouble
def cField : Field Char := .required "c" .char
def dField : Field Color := .required "d" (.variant [("red", .red), ("green", .green)])
def eField : Field (List Int) := .defaulted "e" (.list (.integer .u32 "u32")) []

def colorName : Color → String
  | .red => "red"
  | .green => "green"

def declared (r : Rich) : Json :=
  .obj [("a", .int r.a), ("b", .ofOption (r.b.map .float)), ("c", .str (String.ofList [r.c])),
    ("d", .str (colorName r.d)), ("e", .arr (r.e.map .int))]

def read : Json → Except TypeError Rich :=
  readRecord "Rich" 5 [aField.entry, bField.entry, cField.entry, dField.entry, eField.entry]
    fun src expected => do
      let a ← src.take expected 0 aField
      let b ← src.take expected 1 bField
      let c ← src.take expected 2 cField
      let d ← src.take expected 3 dField
      let e ← src.take expected 4 eField
      return ⟨a, b, c, d, e⟩

def readForm (ps : List (String × String)) : Option Rich := do
  let a ← aField.ofForm ps
  let b ← bField.ofForm ps
  let c ← cField.ofForm ps
  let d ← dField.ofForm ps
  let e ← eField.ofForm ps
  return ⟨a, b, c, d, e⟩

instance : Document Rich := ⟨declared, read, readForm⟩

end Rich

end WebResource.Sample
