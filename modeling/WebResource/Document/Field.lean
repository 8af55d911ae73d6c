import WebResource.Document.Basic
import WebResource.Text.Integer
import WebResource.Text.Uuid

namespace WebResource

/-!
# Fields

How the values of one field are read, and how a record is read from its fields: from an object by
name, where the first field in the order of names that does not fit is reported, then the first
declared field that is missing; or from an array in the order of declaration.
-/

/-- What may stand in a field. -/
structure Scalar (α : Type) where
  read : Json → Except TypeError α
  readText : String → Option α

namespace Scalar

variable {α : Type}

def text : Scalar String where
  read
    | .str s => .ok s
    | j => .error (.invalidType j "a string")
  readText := some

def bool : Scalar Bool where
  read
    | .bool b => .ok b
    | j => .error (.invalidType j "a boolean")
  readText s := if s = "true" then some true else if s = "false" then some false else none

def integer (r : IntRange) (name : String) : Scalar Int where
  read
    | .int i => if r.holds i then .ok i else .error (.invalidValue (.int i) name)
    | j => .error (.invalidType j name)
  readText s := (r.read s).toOption

def char : Scalar Char where
  read
    | .str s =>
      match s.toList with
      | [c] => .ok c
      | _ => .error (.invalidValue (.str s) "a character")
    | j => .error (.invalidType j "a character")
  readText s :=
    match s.toList with
    | [c] => some c
    | _ => none

/-- One of a list of names. -/
def variant (options : List (String × α)) : Scalar α where
  read
    | .str s =>
      match options.find? (·.1 == s) with
      | some (_, a) => .ok a
      | none => .error (.unknownVariant s (options.map (·.1)))
    | .obj [(k, v)] =>
      match options.find? (·.1 == k), v with
      | some (_, a), .null => .ok a
      | some _, v => .error (.invalidType v "unit")
      | none, _ => .error (.unknownVariant k (options.map (·.1)))
    | .obj fs => .error (.invalidValue (.obj fs) "map with a single key")
    | j => .error (.invalidType j "string or map")
  readText s := (options.find? (·.1 == s)).map (·.2)

def uuid : Scalar Uuid where
  read
    | .str s =>
      match Uuid.parse s with
      | .ok u => .ok u
      | .error e => .error (.other s!"UUID parsing failed: {e.message}")
    | j => .error (.invalidType j "a formatted UUID string")
  readText s := (Uuid.parse s).toOption

/-- Null stands for none; a form has no null. -/
def optional (s : Scalar α) : Scalar (Option α) where
  read
    | .null => .ok none
    | j => (s.read j).map some
  readText t := (s.readText t).map some

def readItems (s : Scalar α) : List Json → Except TypeError (List α)
  | [] => .ok []
  | j :: js => do
    let a ← s.read j
    let as ← readItems s js
    return a :: as

/-- A list of scalars, which a form cannot hold. -/
def list (s : Scalar α) : Scalar (List α) where
  read
    | .arr js => s.readItems js
    | j => .error (.invalidType j "a sequence")
  readText _ := none

/-! ### Numbers with a fraction -/

def digitsOf (cs : List Char) : List Char := cs.takeWhile Char.isDigit

def afterDigits (cs : List Char) : List Char := cs.dropWhile Char.isDigit

def natOf (cs : List Char) : Nat := cs.foldl (fun n c => 10 * n + (c.toNat - 48)) 0

/-- An exponent `e5`, `E-5` or nothing. -/
def exponent? : List Char → Option Int
  | [] => some 0
  | c :: cs =>
    if c = 'e' ∨ c = 'E' then
      let (negative, ds) := match cs with
        | '-' :: ds => (true, ds)
        | '+' :: ds => (false, ds)
        | ds => (false, ds)
      if ds.isEmpty ∨ !ds.all Char.isDigit then none
      else some (if negative then -(natOf ds : Int) else natOf ds)
    else none

/-- The double nearest to `n * 10 ^ e`. Exponents out of all range are not computed. -/
def nearest (negative : Bool) (n : Nat) (e : Int) : Option Binary64 :=
  if n = 0 then some (.zero negative)
  else if 0 ≤ e then if 400 < e then none else Binary64.ofRatio negative (n * Nat.pow 10 e.toNat) 1
  else if e < -(400 + 2 * (Nat.toDigits 10 n).length : Int) then some (.zero negative)
  else Binary64.ofRatio negative n (Nat.pow 10 (-e).toNat)

def infinities : List (List Char) :=
  ["inf", "infinity", "nan"].map String.toList

/-- A decimal text, with a digit before or behind the point. A number that is too large to be
written in a document is read as none. -/
def decimalChars (negative : Bool) (cs : List Char) : Option (Option Binary64) :=
  if infinities.contains (cs.map Char.toLower) then some none
  else
    let whole := digitsOf cs
    let (part, rest) := match afterDigits cs with
      | '.' :: cs => (digitsOf cs, afterDigits cs)
      | cs => ([], cs)
    if whole.isEmpty && part.isEmpty then none
    else (exponent? rest).map fun e => nearest negative (natOf (whole ++ part)) (e - part.length)

def decimal (s : String) : Option (Option Binary64) :=
  match s.toList with
  | '-' :: cs => decimalChars true cs
  | '+' :: cs => decimalChars false cs
  | cs => decimalChars false cs

/-- A double, which may be written as an integer; null stands for none. -/
def optionalDouble : Scalar (Option Binary64) where
  read
    | .null => .ok none
    | .float f => .ok (some f)
    | .int i => .ok ((Binary64.ofNat i.natAbs).map fun f => ⟨decide (i < 0), f.mantissa, f.scale⟩)
    | j => .error (.invalidType j "f64")
  readText := decimal

end Scalar

/-- A field of a record: what stands for it where an object does not have it, and where an array is
too short for it. -/
structure Field (α : Type) where
  name : String
  scalar : Scalar α
  absent : Option α
  beyond : Option α

namespace Field

variable {α : Type}

def required (name : String) (s : Scalar α) : Field α := ⟨name, s, none, none⟩

def defaulted (name : String) (s : Scalar α) (a : α) : Field α := ⟨name, s, some a, some a⟩

/-- A field that may be left out of an object only. -/
def nullable (name : String) (s : Scalar (Option α)) : Field (Option α) :=
  ⟨name, s, some none, none⟩

/-- What is wrong with a value in this field. -/
def fault (f : Field α) (j : Json) : Option TypeError :=
  match f.scalar.read j with
  | .ok _ => none
  | .error e => some e

def ofFields (f : Field α) (fs : Json.Fields) : Except TypeError α :=
  match Json.findField f.name fs with
  | some j => f.scalar.read j
  | none =>
    match f.absent with
    | some a => .ok a
    | none => .error (.missingField f.name)

/-- The field at position `i` of an array. -/
def ofItems (f : Field α) (i : Nat) (expected : String) (js : List Json) : Except TypeError α :=
  match js[i]? with
  | some j => f.scalar.read j
  | none =>
    match f.beyond with
    | some a => .ok a
    | none => .error (.invalidLength i expected)

def findText (name : String) : List (String × String) → Option String
  | [] => none
  | (k, v) :: ps => if k = name then some v else findText name ps

def ofForm (f : Field α) (ps : List (String × String)) : Option α :=
  match findText f.name ps with
  | some t => f.scalar.readText t
  | none => f.absent

end Field

/-- Where the fields of a record are taken from. -/
inductive Source where
  | fields (fs : Json.Fields)
  | items (js : List Json)

namespace Source

def take {α : Type} (src : Source) (expected : String) (i : Nat) (f : Field α) :
    Except TypeError α :=
  match src with
  | .fields fs => f.ofFields fs
  | .items js => f.ofItems i expected js

end Source

/-- The first value in the order of names that does not fit its field. -/
def firstFault (faults : List (String × (Json → Option TypeError))) (fs : Json.Fields) :
    Option TypeError :=
  fs.findSome? fun (k, v) => (faults.find? (·.1 == k)).bind fun (_, fault) => fault v

/-- Reads a record named `name` of `count` fields. -/
def readRecord {E : Type} (name : String) (count : Nat)
    (faults : List (String × (Json → Option TypeError)))
    (take : Source → String → Except TypeError E) (j : Json) : Except TypeError E :=
  let expected := s!"struct {name} with {count} elements"
  match j with
  | .obj fs =>
    match firstFault faults fs with
    | some e => .error e
    | none => take (.fields fs) expected
  | .arr js =>
    match take (.items js) expected with
    | .error e => .error e
    | .ok e => if count < js.length then .error (.invalidLength js.length "fewer elements in array") else .ok e
  | j => .error (.invalidType j s!"struct {name}")

namespace Field

def entry {α : Type} (f : Field α) : String × (Json → Option TypeError) := (f.name, f.fault)

end Field

end WebResource
