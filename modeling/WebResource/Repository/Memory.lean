import WebResource.Repository.Basic

namespace WebResource

/-!
# Entities in memory

A list of entities in the order of their creation. An entity without an identifier gets one made
from a sequence number. A stream of all entities is a copy of the list, which an error that was set
up before may cut short.
-/

/-- How entities carry identifiers, and how new identifiers are made. -/
structure Identity (E I : Type) where
  id : E → Option I
  setId : I → E → E
  fresh : Nat → I

structure Memory (E : Type) where
  entities : List E
  sequence : Nat
  openStreams : Nat
  injected : Option (Nat × StorageError)

namespace Memory

variable {E I : Type} [DecidableEq I]

def empty : Memory E := ⟨[], 1, 0, none⟩

def alreadyExists : StorageError := ⟨.alreadyExists, "Entity already exists"⟩

def notFound : StorageError := ⟨.notFound, "Entity not found"⟩

def hasId (k : Identity E I) (i : I) (e : E) : Bool := k.id e == some i

def create (k : Identity E I) (e : E) (m : Memory E) : Except StorageError E × Memory E :=
  match k.id e with
  | some i =>
    if m.entities.any (hasId k i) then (.error alreadyExists, m)
    else (.ok e, { m with entities := m.entities ++ [e] })
  | none =>
    let e := k.setId (k.fresh m.sequence) e
    (.ok e, { m with entities := m.entities ++ [e], sequence := m.sequence + 1 })

def find (k : Identity E I) (i : I) (m : Memory E) : Option E := m.entities.find? (hasId k i)

def update (k : Identity E I) (e : E) (m : Memory E) : Except StorageError Unit × Memory E :=
  match k.id e with
  | none => (.error notFound, m)
  | some i =>
    match Repository.replaceFirst (hasId k i) e m.entities with
    | some es => (.ok (), { m with entities := es })
    | none => (.error notFound, m)

def delete (k : Identity E I) (i : I) (m : Memory E) : Except StorageError Unit × Memory E :=
  let es := m.entities.filter fun e => !hasId k i e
  if es.length = m.entities.length then (.error notFound, m)
  else (.ok (), { m with entities := es })

def deleteAll (m : Memory E) : Memory E := { m with entities := [] }

/-- Makes the next stream end with an error after so many entities. -/
def inject (after : Nat) (e : StorageError) (m : Memory E) : Memory E :=
  { m with injected := some (after, e) }

def snapshot (m : Memory E) : List (Fetched E) :=
  match m.injected with
  | none => m.entities.map .entity
  | some (after, e) => (m.entities.take after).map .entity ++ [.error e]

def openStream (m : Memory E) : List (Fetched E) × Memory E :=
  (m.snapshot, { m with injected := none, openStreams := m.openStreams + 1 })

def closeStream (m : Memory E) : Memory E := { m with openStreams := m.openStreams - 1 }

/-- All operations, each as one atomic step. -/
def operations (k : Identity E I) : Operations (Memory E) E I where
  create := some fun _ e => Act.step (create k e)
  index := some fun _ => do
    let items ← Act.step openStream
    return ⟨items, closeStream⟩
  find := some fun _ i => Act.step fun m => (.ok (m.find k i), m)
  update := some fun _ e => Act.step (update k e)
  destroy := some fun _ i => Act.step (delete k i)
  destroyAll := some fun _ => Act.step fun m => (.ok (), m.deleteAll)

end Memory

end WebResource
