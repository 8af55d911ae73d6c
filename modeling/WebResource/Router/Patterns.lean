import WebResource.Text.Split

namespace WebResource

/-!
# Patterns

A table of handlers by pattern. A pattern that ends in `/` names a subtree: it matches what starts
with it, and itself without the slash. Any other pattern matches only itself. The longest pattern
that matches wins.
-/

structure PatternTable (H : Type) where
  entries : List (String × H)

/-- A pattern that has a handler already. -/
structure PatternTaken where
  pattern : String
  deriving DecidableEq, Repr

namespace PatternTaken

def message (e : PatternTaken) : String := s!"Handler for pattern {e.pattern} already registered"

end PatternTaken

namespace PatternTable

variable {H : Type}

def empty : PatternTable H := ⟨[]⟩

def has (m : PatternTable H) (pattern : String) : Bool := m.entries.any (·.1 == pattern)

def insert (m : PatternTable H) (pattern : String) (h : H) : Except PatternTaken (PatternTable H) :=
  if m.has pattern then .error ⟨pattern⟩ else .ok ⟨m.entries ++ [(pattern, h)]⟩

/-- Patterns start with a slash, which may be left out. -/
def rooted (pattern : String) : String :=
  match pattern.toList with
  | '/' :: _ => pattern
  | cs => String.ofList ('/' :: cs)

def handle (m : PatternTable H) (pattern : String) (h : H) : Except PatternTaken (PatternTable H) :=
  m.insert (rooted pattern) h

def isSubtree (pattern : List Char) : Bool := pattern.getLast? == some '/'

def matchesChars (pattern path : List Char) : Bool :=
  if isSubtree pattern then pattern.isPrefixOf path || path == pattern.dropLast else path == pattern

def «matches» (pattern path : String) : Bool := matchesChars pattern.toList path.toList

/-- The entry of the longest pattern that matches, among those given and the best so far. -/
def longest (path : String) : Option (String × H) → List (String × H) → Option (String × H)
  | best, [] => best
  | none, e :: es => longest path (if «matches» e.1 path then some e else none) es
  | some b, e :: es =>
    longest path (if «matches» e.1 path && b.1.utf8ByteSize < e.1.utf8ByteSize then some e else some b) es

def lookup (m : PatternTable H) (path : String) : Option H := (longest path none m.entries).map (·.2)

/-- Adds entries one by one. Those before a pattern that is taken stay added. -/
def addAll (m : PatternTable H) : List (String × H) → Option PatternTaken × PatternTable H
  | [] => (none, m)
  | (p, h) :: es =>
    match m.insert p h with
    | .error e => (some e, m)
    | .ok m => addAll m es

def merge (m other : PatternTable H) : Option PatternTaken × PatternTable H := m.addAll other.entries

end PatternTable

end WebResource
