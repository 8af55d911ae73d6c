import WebResource.Text.Utf8

namespace WebResource

/-!
# Headers

Named values in order. Names are compared without regard to case and may occur more than once.
-/

abbrev Headers := List (String × Bytes)

namespace Headers

def matchesName (name : String) (h : String × Bytes) : Bool := h.1.toLower == name.toLower

def all (name : String) (hs : Headers) : List Bytes := (hs.filter (matchesName name)).map (·.2)

def first? (name : String) (hs : Headers) : Option Bytes := (hs.find? (matchesName name)).map (·.2)

/-- A value is text if all its bytes are visible ASCII characters, spaces or tabs. -/
def isText (bs : Bytes) : Bool := bs.all fun b => (0x20 ≤ b && b ≤ 0x7E) || b == 0x09

/-- Only control characters cannot stand in the value of a header. -/
def isSendable (bs : Bytes) : Bool := bs.all fun b => (0x20 ≤ b && b != 0x7F) || b == 0x09

def text? (bs : Bytes) : Option String :=
  if isText bs then some (String.ofList (bs.map fun b => Char.ofNat b.toNat)) else none

/-- The first value of that name, if it is text. -/
def firstText? (name : String) (hs : Headers) : Option String := (hs.first? name).bind text?

end Headers

end WebResource
