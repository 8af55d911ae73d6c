import WebResource.Json.Reader
import WebResource.Sample.Entities

namespace WebResource.Sample

/-!
# Kinds of entities

The three kinds of sample entities that can be stored, and shelves on which any number of
repositories of each kind stand.
-/

structure Shelf where
  foos : List (Memory Foo)
  counters : List (Memory Counter)
  docs : List (Memory Json)

def Shelf.empty : Shelf := ⟨[], [], []⟩

/-- A kind of entities with all that a resource of them needs. -/
structure Kind where
  E : Type
  I : Type
  [document : Document E]
  [identifier : Identifier I]
  [same : DecidableEq I]
  identity : Identity E I
  /-- The mapping to labels. -/
  label : Mapping E
  ids : IdFormat I
  /-- Reads the identifiers of the format that writes none. -/
  readOdd : String → Option I
  memories : Shelf → List (Memory E)
  withMemories : List (Memory E) → Shelf → Shelf

attribute [instance] Kind.document Kind.identifier Kind.same

namespace Kind

def foo : Kind where
  E := Foo
  I := String
  identity := Foo.identity
  label := Foo.labelMapping
  ids := .text
  readOdd := some
  memories s := s.foos
  withMemories ms s := { s with foos := ms }

def counter : Kind where
  E := Counter
  I := Int
  identity := Counter.identity
  label := Counter.labelMapping
  ids := .signed .i64 "i64"
  readOdd raw :=
    (Json.read (Utf8.encode raw)).toOption.bind fun j => (Identifier.ofJson (I := Int) j).toOption
  memories s := s.counters
  withMemories ms s := { s with counters := ms }

def doc : Kind where
  E := Json
  I := String
  identity := Doc.identity
  label := Doc.labelMapping
  ids := .text
  readOdd := some
  memories s := s.docs
  withMemories ms s := { s with docs := ms }

variable (k : Kind)

def oddIds : IdFormat k.I where
  format _ := .error (.invalid "cannot format")
  parse raw :=
    match k.readOdd raw with
    | some i => .ok i
    | none => .error (.invalid s!"odd id {raw}")

/-- The lens of the field `id` that refuses to set it. -/
def readOnly : IdLens k.E k.I :=
  { (.byField "id" : IdLens k.E k.I) with set := fun _ _ => .error (.invalid "read-only id") }

def mapping (name : String) : Mapping k.E := if name = "label" then k.label else .identity

def view (place : Nat) (s : Shelf) : Memory k.E := (k.memories s)[place]?.getD .empty

def put (place : Nat) (m : Memory k.E) (s : Shelf) : Shelf :=
  k.withMemories ((k.memories s).set place m) s

/-- Puts a repository on a shelf and tells its place. -/
def add (m : Memory k.E) (s : Shelf) : Nat × Shelf :=
  ((k.memories s).length, k.withMemories (k.memories s ++ [m]) s)

def operations (place : Nat) : Operations Shelf k.E k.I :=
  (Memory.operations k.identity).zoom (k.view place) (k.put place)

end Kind

end WebResource.Sample
