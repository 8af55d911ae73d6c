import WebResource.Id.Lens
import WebResource.Mapping
import WebResource.Repository.Basic
import WebResource.Text.Blank

namespace WebResource.Sample

/-!
# Projects and notes

A store of projects, each of which groups notes. The project whose notes a request is about is named
by a path parameter.
-/

structure Project where
  id : Option Uuid
  name : String
  deriving DecidableEq, Repr

namespace Project

def idField : Field (Option Uuid) := .defaulted "id" (.optional .uuid) none
def nameField : Field String := .required "name" .text

def declared (p : Project) : Json :=
  .obj (Document.optionalField "id" (p.id.map fun u => .str u.toText) ++ [("name", .str p.name)])

def read : Json → Except TypeError Project :=
  readRecord "Project" 2 [idField.entry, nameField.entry] fun src expected => do
    let id ← src.take expected 0 idField
    let name ← src.take expected 1 nameField
    return ⟨id, name⟩

def readForm (ps : List (String × String)) : Option Project := do
  let id ← idField.ofForm ps
  let name ← nameField.ofForm ps
  return ⟨id, name⟩

instance : Document Project := ⟨declared, read, readForm⟩

/-- Why a project cannot be stored, if so. -/
def invalid (p : Project) : Option String :=
  if Text.hasInk p.name then none else some "Project name cannot be empty"

end Project

structure Note where
  id : Option Uuid
  project : Uuid
  text : String
  deriving DecidableEq, Repr

/-- A note as it goes over the wire, where its project is part of the URL. -/
structure NoteDocument where
  id : Option Uuid
  text : String
  deriving DecidableEq, Repr

namespace NoteDocument

def idField : Field (Option Uuid) := .defaulted "id" (.optional .uuid) none
def textField : Field String := .required "text" .text

def declared (d : NoteDocument) : Json :=
  .obj (Document.optionalField "id" (d.id.map fun u => .str u.toText) ++ [("text", .str d.text)])

def read : Json → Except TypeError NoteDocument :=
  readRecord "NoteDto" 2 [idField.entry, textField.entry] fun src expected => do
    let id ← src.take expected 0 idField
    let text ← src.take expected 1 textField
    return ⟨id, text⟩

def readForm (ps : List (String × String)) : Option NoteDocument := do
  let id ← idField.ofForm ps
  let text ← textField.ofForm ps
  return ⟨id, text⟩

instance : Document NoteDocument := ⟨declared, read, readForm⟩

end NoteDocument

namespace Note

def maxBytes : Nat := 1024

def document (n : Note) : NoteDocument := ⟨n.id, n.text⟩

/-- The note of a project for a document, or why there cannot be one. -/
def ofDocument (project : Uuid) (d : NoteDocument) : Except String Note :=
  if maxBytes < d.text.utf8ByteSize then .error s!"Note text cannot be longer than {maxBytes} bytes"
  else .ok ⟨d.id, project, d.text⟩

end Note

/-- All that is stored, in the order of creation, and how many identifiers have been made. -/
structure Store where
  projects : List Project
  notes : List Note
  drawn : Nat
  deriving DecidableEq, Repr

namespace Store

def empty : Store := ⟨[], [], 0⟩

def hasProject (s : Store) (i : Uuid) : Bool := s.projects.any (·.id == some i)

/-! ## Projects -/

def projectMissing : StorageError := ⟨.notFound, "Project not found"⟩

def createProject (fresh : Nat → Uuid) (p : Project) (s : Store) : Except StorageError Project × Store :=
  match p.id with
  | some i =>
    if s.hasProject i then (.error ⟨.alreadyExists, s!"Project {i.toText} already exists"⟩, s)
    else (.ok p, { s with projects := s.projects ++ [p] })
  | none =>
    let p := { p with id := some (fresh s.drawn) }
    (.ok p, { s with projects := s.projects ++ [p], drawn := s.drawn + 1 })

def findProject (i : Uuid) (s : Store) : Option Project := s.projects.find? (·.id == some i)

def updateProject (p : Project) (s : Store) : Except StorageError Unit × Store :=
  match Repository.replaceFirst (fun q => q.id.isSome && q.id == p.id) p s.projects with
  | some projects => (.ok (), { s with projects })
  | none => (.error projectMissing, s)

/-- Deletes a project with its notes. -/
def deleteProject (i : Uuid) (s : Store) : Except StorageError Unit × Store :=
  if s.hasProject i then
    (.ok (), { s with
      projects := s.projects.filter fun p => p.id != some i
      notes := s.notes.filter fun n => n.project != i })
  else (.error projectMissing, s)

def deleteProjects (s : Store) : Store := { s with projects := [], notes := [] }

/-! ## Notes -/

def noteMissing : StorageError := ⟨.notFound, "Note not found"⟩

/-- The note of a project that has an identifier. -/
def isNote (project i : Uuid) (n : Note) : Bool := n.project == project && n.id == some i

def createNote (fresh : Nat → Uuid) (project : Uuid) (n : Note) (s : Store) :
    Except StorageError Note × Store :=
  if n.project ≠ project then (.error ⟨.invalidInput, "Note belongs to another project"⟩, s)
  else if !s.hasProject project then
    (.error ⟨.notFound, s!"Project {project.toText} not found"⟩, s)
  else
    match n.id with
    | some i =>
      if s.notes.any (·.id == some i) then
        (.error ⟨.alreadyExists, s!"Note {i.toText} already exists"⟩, s)
      else (.ok n, { s with notes := s.notes ++ [n] })
    | none =>
      let n := { n with id := some (fresh s.drawn) }
      (.ok n, { s with notes := s.notes ++ [n], drawn := s.drawn + 1 })

def notesOf (project : Uuid) (s : Store) : List Note := s.notes.filter (·.project == project)

def findNote (project i : Uuid) (s : Store) : Option Note := s.notes.find? (isNote project i)

def updateNote (project : Uuid) (n : Note) (s : Store) : Except StorageError Unit × Store :=
  match Repository.replaceFirst (fun m => m.project == project && m.id.isSome && m.id == n.id) n s.notes with
  | some notes => (.ok (), { s with notes })
  | none => (.error noteMissing, s)

def deleteNote (project i : Uuid) (s : Store) : Except StorageError Unit × Store :=
  if s.notes.any (isNote project i) then
    (.ok (), { s with notes := s.notes.filter fun n => !isNote project i n })
  else (.error noteMissing, s)

/-! ## Operations -/

/-- The path parameter that names the project of notes. -/
def projectParam : String := "project_id"

/-- The project that the notes of a request belong to. -/
def projectOf (c : Context) : Except StorageError Uuid :=
  match c.param? projectParam with
  | none => .error ⟨.invalidInput, "Notes require a project"⟩
  | some raw =>
    match Uuid.parse raw with
    | .ok u => .ok u
    | .error e => .error ⟨.invalidInput, s!"Invalid project '{raw}': {e.message}"⟩

/-- Does something with a project that can be stored. -/
def checked {α : Type} (p : Project) (x : Act Store (Except StorageError α)) :
    Act Store (Except StorageError α) :=
  match p.invalid with
  | some why => .done (.error ⟨.invalidInput, why⟩)
  | none => x

def logCreated (r : Except StorageError Project) : Act Store (Except StorageError Project) :=
  match r with
  | .ok p =>
    let i := (p.id.map Uuid.toText).getD ""
    .log (.debug s!"Creating project Some({i})") (.done r)
  | .error _ => .done r

def projectOperations (fresh : Nat → Uuid) : Operations Store Project Uuid where
  create := some fun _ p => checked p ((Act.step (createProject fresh p)).bind logCreated)
  index := some fun _ => Act.step fun s => (⟨s.projects.map .entity, id⟩, s)
  find := some fun _ i => Act.step fun s => (.ok (s.findProject i), s)
  update := some fun _ p => checked p (Act.step (updateProject p))
  destroy := some fun _ i => Act.step (deleteProject i)
  destroyAll := some fun _ => Act.step fun s => (.ok (), s.deleteProjects)

/-- Does something with the project that a context names. -/
def within {α : Type} (c : Context) (x : Uuid → Act Store (Except StorageError α)) :
    Act Store (Except StorageError α) :=
  match projectOf c with
  | .error e => .done (.error e)
  | .ok project => x project

def noteStream (c : Context) : Act Store (EntityStream Store Note) :=
  match projectOf c with
  | .error e => .done ⟨[.error e], id⟩
  | .ok project => Act.step fun s => (⟨(s.notesOf project).map .entity, id⟩, s)

/-- The operations on the notes of the project that the context names. Notes cannot be deleted
all at once. -/
def noteOperations (fresh : Nat → Uuid) : Operations Store Note Uuid where
  create := some fun c n => within c fun project => Act.step (createNote fresh project n)
  index := some noteStream
  find := some fun c i => within c fun project => Act.step fun s => (.ok (s.findNote project i), s)
  update := some fun c n => within c fun project => Act.step (updateNote project n)
  destroy := some fun c i => within c fun project => Act.step (deleteNote project i)
  destroyAll := none

end Store

end WebResource.Sample
