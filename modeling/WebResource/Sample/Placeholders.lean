import WebResource.Json.Printer
import WebResource.Json.Reader
import WebResource.Text.Uuid

namespace WebResource.Sample

/-!
# Placeholders for identifiers

A scenario cannot know beforehand which identifiers a store will make. It calls them `new-1`,
`new-2` and so on, in braces, in the order in which they are first seen.
-/

namespace Placeholders

/-- The identifiers that a store makes in a scenario. -/
def fresh (n : Nat) : Uuid := ⟨BitVec.ofNat 128 (0xF0F0F0F0F0F04F0F8F0F000000000000 + n)⟩

def name (i : Nat) : String := "\x7bnew-" ++ toString (i + 1) ++ "\x7d"

/-- Replaces texts in all strings of a document, one after the other. -/
def replaceAll (pairs : List (String × String)) (j : Json) : Json :=
  let s := pairs.foldl (fun s (a, b) => s.replace a b) j.text
  ((Json.read (Utf8.encode s)).toOption).getD j

/-- Puts the identifiers that have been seen in the places of their names. -/
def fill (seen : List String) (j : Json) : Json :=
  replaceAll (seen.zipIdx.map fun (u, i) => (name i, u)) j

/-- Puts names in the places of the identifiers that have been seen. -/
def hide (seen : List String) (j : Json) : Json :=
  replaceAll (seen.zipIdx.map fun (u, i) => (u, name i)) j

/-- A text of lower-case digits in the groups of an identifier. -/
def isIdentifier (cs : List Char) : Bool :=
  match Uuid.parse (String.ofList cs) with
  | .ok u => u.toText.toList == cs
  | .error _ => false

def identifiers : List Char → List String
  | [] => []
  | c :: cs =>
    let u := (c :: cs).take 36
    if isIdentifier u then String.ofList u :: identifiers cs else identifiers cs

/-- Adds the identifiers that a document shows first and that are not part of the scenario. -/
def note (scenario : String) (j : Json) (seen : List String) : List String :=
  (identifiers j.text.toList).foldl (fun seen u =>
    if seen.contains u || 1 < (scenario.splitOn u).length then seen else seen ++ [u]) seen

end Placeholders

end WebResource.Sample
