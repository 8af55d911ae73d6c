import WebResource.Text.Hex
import WebResource.Text.Split

namespace WebResource

/-!
# Tables of code points

Properties of characters are kept as lines of text: entries between blanks, code points in
hexadecimal, a range as its first and its last one with a hyphen between them, and what belongs to
an entry behind a colon.
-/

namespace CodePoints

def entries (table : List String) : List (List Char) :=
  table.flatMap fun line => Text.splitOn ' ' line.toList

/-- An entry and what belongs to it. -/
def labelled (table : List String) : List (List Char × List Char) :=
  (entries table).filterMap (Text.cut ':')

def number (cs : List Char) : Nat :=
  cs.foldl (fun n c => 16 * n + (Hex.value? c.toNat).getD 0) 0

def char (cs : List Char) : Char := Char.ofNat (number cs)

structure Range where
  first : Nat
  last : Nat

namespace Range

def ofText (cs : List Char) : Range :=
  match Text.cut '-' cs with
  | some (l, r) => ⟨number l, number r⟩
  | none => ⟨number cs, number cs⟩

def contains (r : Range) (c : Char) : Bool := r.first ≤ c.toNat && c.toNat ≤ r.last

end Range

def ranges (table : List String) : List Range := (entries table).map Range.ofText

def contains (rs : List Range) (c : Char) : Bool := rs.any (·.contains c)

end CodePoints

end WebResource
