import WebResource.Resource.Handler
import WebResource.Sample.Network

namespace WebResource.Sample

/-!
# A workbench

Routers with names, a shelf of repositories and a network, which are put together and tried out step
by step. A step may panic; what it has done before stays done. After a merge that never ends there is
no next step, so the work as a whole gives nothing.
-/

structure Workbench where
  routes : Routes Shelf
  names : List (String × NodeId)
  network : Timed Network
  logs : List LogRecord

abbrev Work := ExceptT Payload (StateT Workbench Option)

namespace Work

variable {α : Type}

instance : Inhabited (Work α) := ⟨throw .other⟩

def bench : Work Workbench := get

def shelf : Work Shelf := do return (← bench).network.inner.shelf

def node (name : String) : Work NodeId := do
  return (((← bench).names.find? (·.1 == name)).map (·.2)).getD 0

def setName (name : String) (i : NodeId) : Work Unit :=
  modify fun b => { b with names := (name, i) :: b.names }

/-- Runs a step with names of its own. -/
def withoutNames (x : Work α) : Work α := do
  let names := (← bench).names
  modify fun b => { b with names := [] }
  let a ← x
  modify fun b => { b with names }
  return a

def onRoutes (f : Routes Shelf → α × Routes Shelf) : Work α := do
  let b ← bench
  let (a, t) := f b.routes
  set { b with routes := t }
  return a

/-- Work that never ends. -/
def endless : Work α := ExceptT.mk fun _ => none

/-- A registration, which panics at a clash. -/
def register (f : Routes Shelf → Router.Registered Shelf) : Work Unit := do
  match ← onRoutes f with
  | .done => return ()
  | .clash e => throw (.text e.message)
  | .endless => endless

def log (logs : List LogRecord) : Work Unit := modify fun b => { b with logs := b.logs ++ logs }

/-- Runs a program on the network. -/
def onNetwork (x : Act (Timed Network) α) : Work α := do
  let b ← bench
  let o := x.run b.network
  set { b with network := o.state, logs := b.logs ++ o.logs }
  match o.result with
  | .ok a => return a
  | .error p => throw p

def onShelf (x : Act Shelf α) : Work α :=
  onNetwork (Timed.lift (x.zoom (·.shelf) fun s n => { n with shelf := s }))

def serve (s : Service Shelf) (request : Request) (limit : Option Nat) : Work (Response Shelf) := do
  let r := (← onShelf (s request)).upTo limit
  log r.logs
  onShelf (Act.modify r.release)
  return r

/-- Puts a repository with some entities on the shelf. -/
def stock (k : Kind) (seed : List k.E) : Work Nat := do
  let m := seed.foldl (fun m e => (m.create k.identity e).2) Memory.empty
  let (place, s) := k.add m (← shelf)
  onShelf (Act.modify fun _ => s)
  return place

def changeMemory (k : Kind) (place : Nat) (f : Memory k.E → Memory k.E) : Work Unit :=
  onShelf (Act.modify fun s => k.put place (f (k.view place s)) s)

/-- A router of its own in which a handler is mounted. -/
def mounted (path : String) (h : Handler Shelf) : Work (Handler Shelf) := do
  let i ← onRoutes (·.addNode)
  register fun t => Router.mount t i path h
  return .ofRouter i

def start (x : Work α) : Option (Except Payload α × Workbench) :=
  x.run.run ⟨.empty, [], .start (.start .empty), []⟩

end Work

end WebResource.Sample
