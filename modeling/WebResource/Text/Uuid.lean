import WebResource.Text.Hex

namespace WebResource

/-!
# Universally unique identifiers

128 bits, written as 32 hexadecimal digits in groups of 8, 4, 4, 4 and 12. Texts without hyphens,
in braces or after `urn:uuid:` are read as well. A text that is refused and no longer than the
longest form is blamed on its first character that cannot occur, then on the number of groups, then
on their lengths.
-/

structure Uuid where
  bits : BitVec 128
  deriving DecidableEq, Repr

namespace Uuid

inductive ParseError where
  | badChar (c : Char) (offset : Nat)
  | badLength (found : Nat)
  | groupCount (found : Nat)
  | groupLength (group expected found : Nat)
  deriving DecidableEq, Repr

namespace ParseError

def message : ParseError → String
  | .badChar c i => s!"invalid character: found `{c}` at {i}"
  | .badLength n => s!"invalid length: found {n}"
  | .groupCount n => s!"invalid group count: expected 5, found {n}"
  | .groupLength g e n => s!"invalid group length in group {g}: expected {e}, found {n}"

end ParseError

def ofDigits? (cs : List Char) : Option Uuid :=
  (cs.mapM fun c => Hex.value? c.toNat).map fun ns =>
    ⟨BitVec.ofNat 128 (ns.foldl (fun acc n => 16 * acc + n) 0)⟩

def hyphens : List Nat := [8, 13, 18, 23]

/-- Reads 36 characters, four of them hyphens. -/
def hyphenated? (cs : List Char) : Option Uuid :=
  if hyphens.all fun i => cs[i]? == some '-' then
    ofDigits? (cs.take 8 ++ (cs.drop 9).take 4 ++ (cs.drop 14).take 4 ++ (cs.drop 19).take 4 ++
      cs.drop 24)
  else none

def bare? (cs : List Char) : Option (List Char) :=
  match cs with
  | '\x7b' :: rest => if rest.getLast? = some '\x7d' then some rest.dropLast else none
  | _ => none

def urn : List Char := "urn:uuid:".toList

def afterUrn? (cs : List Char) : Option (List Char) :=
  if (cs.take urn.length).map Char.toLower = urn then some (cs.drop urn.length) else none

def byteLength (cs : List Char) : Nat := (Utf8.encodeChars cs).length

/-- The part that has to be hyphenated, if the length of the text suits one of its forms. -/
def hyphenatedPart? (cs : List Char) : Option (List Char) :=
  if byteLength cs = 36 then some cs
  else if byteLength cs = 38 then bare? cs
  else if byteLength cs = 45 then afterUrn? cs
  else none

/-- The part inside braces or after the URN scheme, where it starts, and whether it is neither. -/
def unwrap (cs : List Char) : List Char × Nat × Bool :=
  match bare? cs, afterUrn? cs with
  | some core, _ => (core, 1, false)
  | none, some core => (core, urn.length, false)
  | none, none => (cs, 0, true)

/-- The first character that is neither a digit nor a hyphen, with its place. -/
def firstStray : Nat → List Char → Option (Char × Nat)
  | _, [] => none
  | i, c :: cs =>
    if c = '-' ∨ (Hex.value? c.toNat).isSome then firstStray (i + 1) cs else some (c, i)

def hyphenOffsets : Nat → List Char → List Nat
  | _, [] => []
  | i, c :: cs => if c = '-' then i :: hyphenOffsets (i + 1) cs else hyphenOffsets (i + 1) cs

def groupError (length : Nat) : List (Nat × Nat × Nat × Nat) → ParseError
  | [] => .groupLength 4 12 (length - 24)
  | (group, start, expected, found) :: rest =>
    if found = start + expected then groupError length rest
    else .groupLength group expected (found - start)

/-- Why a text that has none of the forms is refused. One that is as long as the hyphenated form
lacks its groups rather than a length. -/
def blame (cs : List Char) : ParseError :=
  let length := byteLength cs
  let (core, offset, plain) := unwrap cs
  match firstStray offset core with
  | some (c, i) => .badChar c i
  | none =>
    match hyphenOffsets 0 core with
    | [] => if plain && length != 36 then .badLength length else .groupCount 1
    | [a, b, c, d] => groupError length [(0, 0, 8, a), (1, 9, 4, b), (2, 14, 4, c), (3, 19, 4, d)]
    | hs => .groupCount (hs.length + 1)

/-- The length of the longest form, the one after `urn:uuid:`. -/
def maxLength : Nat := 45

def parseChars (cs : List Char) : Except ParseError Uuid :=
  if maxLength < byteLength cs then .error (.badLength (byteLength cs))
  else
    match hyphenatedPart? cs with
    | some part => (hyphenated? part).elim (.error (blame part)) .ok
    | none =>
      let found := if byteLength cs = 32 then ofDigits? cs else none
      found.elim (.error (blame cs)) .ok

def parse (s : String) : Except ParseError Uuid := parseChars s.toList

def digits (u : Uuid) : List Char := Hex.padded 32 u.bits.toNat

def toText (u : Uuid) : String :=
  let ds := u.digits
  String.ofList (ds.take 8 ++ '-' :: (ds.drop 8).take 4 ++ '-' :: (ds.drop 12).take 4 ++
    '-' :: (ds.drop 16).take 4 ++ '-' :: ds.drop 20)

end Uuid

end WebResource
