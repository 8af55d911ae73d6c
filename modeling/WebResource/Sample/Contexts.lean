import WebResource.Context.Clock

namespace WebResource.Sample

/-!
# Contexts with names

A tree of contexts that grows step by step, the handles that cancel some of them, and the time that
passes.
-/

structure Contexts where
  world : Timed Unit
  contexts : List (String × Context)
  handles : List (String × Nat)

namespace Contexts

def start : Contexts := ⟨.start (), [], []⟩

/-- The context of a name; an unknown name is that of the background. -/
def context (n : Contexts) (name : String) : Context :=
  ((n.contexts.find? (·.1 == name)).map (·.2)).getD .background

def put (n : Contexts) (name : String) (c : Context) : Contexts :=
  { n with contexts := (name, c) :: n.contexts }

def time (n : Contexts) (f : Timeline → Timeline) : Contexts := { n with world := n.world.setTime f }

/-- A context with a handle of the same name. -/
def withCancel (n : Contexts) (name : String) (c : Context) : Contexts :=
  let (c, signal, t) := c.withCancel n.world.time
  { (n.put name c).time fun _ => t with handles := (name, signal) :: n.handles }

/-- Cancels by a handle after a while. -/
def cancelAfter (n : Contexts) (name : String) (d : Duration) : Contexts :=
  match n.handles.find? (·.1 == name) with
  | some (_, signal) => n.time (·.fireAfter signal d)
  | none => n

/-- Waits until a context is done, at most for a while. -/
def await (n : Contexts) (c : Context) (d : Duration) : Option ContextError × Contexts :=
  let (e, w) := Timed.awaitDone c d n.world
  (e, { n with world := w })

end Contexts

end WebResource.Sample
