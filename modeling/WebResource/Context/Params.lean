namespace WebResource

/-!
# Path parameters

A chain of named values, the most recent first. A name that is recorded again hides its earlier
values.
-/

structure PathParams where
  chain : List (String × String)
  deriving DecidableEq, Repr

namespace PathParams

def empty : PathParams := ⟨[]⟩

def isEmpty (ps : PathParams) : Bool := ps.chain.isEmpty

def add (ps : PathParams) (name value : String) : PathParams := ⟨(name, value) :: ps.chain⟩

/-- Records one value under several names, in their order. -/
def addAll (ps : PathParams) (names : List String) (value : String) : PathParams :=
  names.foldl (fun ps name => ps.add name value) ps

/-- The most recent value of a name. -/
def get (ps : PathParams) (name : String) : Option String :=
  (ps.chain.find? (·.1 == name)).map (·.2)

def hasName (name : String) (m : List (String × String)) : Bool := m.any (·.1 == name)

/-- Each name once, with its most recent value. -/
def toMap (ps : PathParams) : List (String × String) :=
  ps.chain.foldl (fun m p => if hasName p.1 m then m else m ++ [p]) []

end PathParams

end WebResource
