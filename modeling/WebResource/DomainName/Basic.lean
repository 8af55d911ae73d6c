import WebResource.DomainName.Image
import WebResource.Text.Composed
import WebResource.Text.Direction
import WebResource.Text.Punycode

namespace WebResource

/-!
# Domain names

A name is a sequence of labels between dots. Names in any script have a form in ASCII: characters
are replaced by their images, letters and marks are composed, and a label that is still not ASCII is
written in Punycode behind `xn--`. A label that is in that form already has to be the form of one
that these steps would have left alone.
-/

namespace DomainName

/-- Characters of ASCII that cannot occur. -/
def isForbidden (c : Char) : Bool :=
  c.toNat < 0x21 || c.toNat = 0x7F || "#%/:<>?@[\\]^|".toList.contains c

def mapped (name : List Char) : Option (List Char) :=
  match name.mapM image with
  | some images =>
    let cs := Composed.compose images.flatten
    if cs.any isForbidden then none else some cs
  | none => none

/-! ## Labels -/

/-- The most characters of a label that has to be encoded. -/
def longestDecoded : Nat := 1000

def longestEncoded : Nat := 2000

def shown (label : List Char) : Option (List Char) :=
  match Punycode.unmarked? label with
  | none => some label
  | some code =>
    if longestEncoded < code.length ∨ label.getLast? = some '-' then none
    else
      match Punycode.decode? code with
      | some cs => if cs.all isPlain && Composed.compose cs == cs then some cs else none
      | none => none

/-- Whether the letters around a place join across it; the ones before it are backwards. -/
def joinsAcross (before behind : List Char) : Bool :=
  (before.dropWhile Text.isTransparent).head?.any Text.joinsOn &&
    (behind.dropWhile Text.isTransparent).head?.any Text.joinsBack

/-- Whether every joiner has the company that it needs: a silencing mark before it, or for the one
that keeps letters apart, letters that would join. -/
def joinersFit (before : List Char) : List Char → Bool
  | [] => true
  | c :: cs =>
    let silenced := before.head?.any fun m => Composed.classOf m == Composed.silencing
    let fits :=
      if c.toNat = 0x200D then silenced
      else if c.toNat = 0x200C then silenced || joinsAcross before cs
      else true
    fits && joinersFit (c :: before) cs

def isWellFormed (label : List Char) : Bool :=
  !label.head?.any Text.isMark && joinersFit [] label &&
    (Punycode.isBasic label || label.length ≤ longestDecoded)

def directions (label : List Char) : List Direction := label.map Direction.ofChar

/-- Whether the labels can be shown beside each other without changing places. -/
def isOrdered (labels : List (List Char)) : Bool :=
  let ds := labels.map directions
  !(ds.any fun d => d.any Direction.isRightToLeft) ||
    ds.all fun d => d.isEmpty || Direction.isOneWay d

def toAscii (name : List Char) : Option (List Char) := do
  let cs ← mapped name
  let labels ← (Text.splitOn '.' cs).mapM shown
  if labels.all isWellFormed && isOrdered labels then
    return Text.joinWith '.' (labels.map Punycode.label)
  else none

end DomainName

end WebResource
