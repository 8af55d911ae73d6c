namespace WebResource

/-!
# Integers of a fixed range

Decimal texts of the integers that fit a width. A leading `+` is accepted, a leading `-` only where
the range has negative numbers. The text is read from the left: the first digit that leaves the
range is reported even if a later character is no digit.
-/

/-- A range of integers: `bits` wide, with or without negative numbers. -/
structure IntRange where
  bits : Nat
  signed : Bool
  deriving DecidableEq, Repr

namespace IntRange

def i8 : IntRange := ⟨8, true⟩
def i16 : IntRange := ⟨16, true⟩
def i32 : IntRange := ⟨32, true⟩
def i64 : IntRange := ⟨64, true⟩
def i128 : IntRange := ⟨128, true⟩
def u8 : IntRange := ⟨8, false⟩
def u16 : IntRange := ⟨16, false⟩
def u32 : IntRange := ⟨32, false⟩
def u64 : IntRange := ⟨64, false⟩
def u128 : IntRange := ⟨128, false⟩

/-- The range of that name. Sizes have 64 bits. -/
def ofName (name : String) : Option IntRange :=
  ([("i8", i8), ("i16", i16), ("i32", i32), ("i64", i64), ("i128", i128), ("isize", i64), ("u8", u8),
    ("u16", u16), ("u32", u32), ("u64", u64), ("u128", u128), ("usize", u64)].find?
      (·.1 == name)).map (·.2)

def max (r : IntRange) : Nat := if r.signed then Nat.pow 2 (r.bits - 1) - 1 else Nat.pow 2 r.bits - 1

/-- How far below zero the range goes. -/
def depth (r : IntRange) : Nat := if r.signed then Nat.pow 2 (r.bits - 1) else 0

def holds (r : IntRange) (i : Int) : Bool := -(r.depth : Int) ≤ i && i ≤ (r.max : Int)

end IntRange

inductive NumberError where
  | empty
  | badDigit
  | tooLarge
  | tooSmall
  deriving DecidableEq, Repr

namespace NumberError

def message : NumberError → String
  | .empty => "cannot parse integer from empty string"
  | .badDigit => "invalid digit found in string"
  | .tooLarge => "number too large to fit in target type"
  | .tooSmall => "number too small to fit in target type"

end NumberError

namespace IntRange

def digit? (c : Char) : Option Nat := if c.isDigit then some (c.toNat - 48) else none

/-- The number that the digits continue from `acc`, while it stays at most `bound`. -/
def readDigits (bound : Nat) (excess : NumberError) : Nat → List Char → Except NumberError Nat
  | acc, [] => .ok acc
  | acc, c :: cs =>
    match digit? c with
    | none => .error .badDigit
    | some d => if bound < 10 * acc + d then .error excess else readDigits bound excess (10 * acc + d) cs

def readChars (r : IntRange) : List Char → Except NumberError Int
  | [] => .error .empty
  | '+' :: [] => .error .badDigit
  | '+' :: cs => (readDigits r.max .tooLarge 0 cs).map fun n => (n : Int)
  | '-' :: cs =>
    if r.signed && !cs.isEmpty then (readDigits r.depth .tooSmall 0 cs).map fun n => -(n : Int)
    else .error .badDigit
  | cs => (readDigits r.max .tooLarge 0 cs).map fun n => (n : Int)

def read (r : IntRange) (s : String) : Except NumberError Int := r.readChars s.toList

end IntRange

end WebResource
