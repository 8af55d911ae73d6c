import WebResource.Binary64.Basic

namespace WebResource

/-!
# Documents

JSON values. Numbers are integers between `-2 ^ 63` and `2 ^ 64 - 1` or finite doubles. The fields
of an object are kept in the order of their names, each name once.
-/

inductive Json where
  | null
  | bool (b : Bool)
  | int (i : Int)
  | float (f : Binary64)
  | str (s : String)
  | arr (items : List Json)
  | obj (fields : List (String × Json))
  deriving Repr, Inhabited

namespace Json

abbrev Fields := List (String × Json)

/-- Puts a field in its place; a field of that name gives way. -/
def insertField (k : String) (v : Json) : Fields → Fields
  | [] => [(k, v)]
  | (k', v') :: fs =>
    if k = k' then (k, v) :: fs
    else if k < k' then (k, v) :: (k', v') :: fs
    else (k', v') :: insertField k v fs

/-- An object of fields given in any order, the last of each name counting. -/
def ofFields (fs : Fields) : Json := .obj (fs.foldl (fun acc (k, v) => insertField k v acc) [])

def findField (k : String) : Fields → Option Json
  | [] => none
  | (k', v) :: fs => if k = k' then some v else findField k fs

def get? (k : String) : Json → Option Json
  | .obj fs => findField k fs
  | _ => none

def isNumber : Json → Bool
  | .int _ => true
  | .float _ => true
  | _ => false

def ofOption (j : Option Json) : Json := j.getD .null

def ofText? (s : Option String) : Json := ofOption (s.map .str)

def minInt : Int := -9223372036854775808

def maxNat : Nat := 18446744073709551615

mutual

/-- How deep containers are nested; a scalar has depth zero. -/
def depth : Json → Nat
  | .arr xs => depthItems xs + 1
  | .obj fs => depthFields fs + 1
  | _ => 0

def depthItems : List Json → Nat
  | [] => 0
  | x :: xs => max (depth x) (depthItems xs)

def depthFields : List (String × Json) → Nat
  | [] => 0
  | (_, v) :: fs => max (depth v) (depthFields fs)

end

end Json

end WebResource
