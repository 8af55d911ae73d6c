import WebResource.Binary64.Basic

namespace WebResource

/-!
# Shortest decimals

The decimal of a double has the fewest digits that lie closer to it than to any other double, and
of those the nearest. The search tests, for 1, 2, … 17 digits, the two neighbours of the value on
the grid of that many digits.
-/

/-- `digits` without a trailing zero, times `10 ^ exponent`. -/
structure Decimal where
  digits : Nat
  exponent : Int
  deriving DecidableEq, Repr

namespace Binary64

/-- The value and the ends of the interval that rounds to it, in quarters of its unit in the last
place. -/
def interval (f : Binary64) : Nat × Nat × Nat :=
  let m := 4 * f.mantissa
  (if f.mantissa = Nat.pow 2 52 ∧ 0 < f.scale then m - 1 else m - 2, m, m + 2)

def tenRatio (p : Int) : Nat × Nat := if 0 ≤ p then (Nat.pow 10 p.toNat, 1) else (1, Nat.pow 10 (-p).toNat)

/-- `n` quarters of the unit in the last place of `f`, as a quotient. -/
def quarters (f : Binary64) (n : Nat) : Nat × Nat := (n * Nat.pow 2 f.scale, Nat.pow 2 (unitLog + 2))

/-- Whether `c * 10 ^ p` rounds to `f`. -/
def hits (f : Binary64) (c : Nat) (p : Int) : Bool :=
  let (lo, _, hi) := f.interval
  let (tn, td) := tenRatio p
  let (ln, ld) := f.quarters lo
  let (hn, hd) := f.quarters hi
  let closed := f.mantissa % 2 == 0
  let low := ln * td
  let high := hn * td
  if closed then low ≤ c * tn * ld && c * tn * hd ≤ high else low < c * tn * ld && c * tn * hd < high

/-- The exponent `e` with `10 ^ e ≤ f < 10 ^ (e + 1)`, started from a guess that is too small by at
most one. -/
def magnitude (f : Binary64) : Int :=
  let (n, d) := f.quarters (4 * f.mantissa)
  let guess : Int := ((n.log2 : Int) - (d.log2 : Int) - 1) * 30103 / 100000 - 1
  let up (e : Int) : Bool := let (tn, td) := tenRatio (e + 1); tn * d ≤ n * td
  let e := if up guess then guess + 1 else guess
  let e := if up e then e + 1 else e
  if up e then e + 1 else e

/-- The neighbours of `f` on the grid of multiples of `10 ^ p`, the nearer one if both round to
`f`. -/
def onGrid (f : Binary64) (p : Int) : Option Nat :=
  let (n, d) := f.quarters (4 * f.mantissa)
  let (tn, td) := tenRatio p
  let c := n * td / (d * tn)
  let r := n * td % (d * tn)
  match f.hits c p && decide (0 < c), f.hits (c + 1) p with
  | true, true => some (if 2 * r < d * tn ∨ (2 * r = d * tn ∧ c % 2 = 0) then c else c + 1)
  | true, false => some c
  | false, true => some (c + 1)
  | false, false => none

def searchDigits (f : Binary64) (e : Int) : (count start : Nat) → Nat × Int
  | 0, start =>
    let p := e - (start : Int)
    ((f.onGrid p).getD 0, p)
  | count + 1, start =>
    let p := e - (start : Int)
    match f.onGrid p with
    | some c => (c, p)
    | none => searchDigits f e count (start + 1)

/-- Moves trailing zeros of at most `fuel` digits into the exponent. -/
def dropZeros : (fuel : Nat) → Nat → Int → Decimal
  | 0, c, p => ⟨c, p⟩
  | fuel + 1, c, p => if c % 10 = 0 ∧ c ≠ 0 then dropZeros fuel (c / 10) (p + 1) else ⟨c, p⟩

def shortest (f : Binary64) : Decimal :=
  if f.isZero then ⟨0, 0⟩
  else
    let (c, p) := f.searchDigits f.magnitude 17 0
    dropZeros 20 c p

end Binary64

namespace Decimal

def digitChars (d : Decimal) : List Char := Nat.toDigits 10 d.digits

/-- Where the point stands: so many digits before it, if positive. -/
def pointAt (d : Decimal) : Int := (d.digitChars.length : Int) + d.exponent

/-- Digits, a point, digits; at least one on each side. -/
def positional (d : Decimal) : List Char :=
  let ds := d.digitChars
  let k := d.pointAt
  if k ≤ 0 then '0' :: '.' :: (List.replicate (-k).toNat '0' ++ ds)
  else
    let whole := ds.take k.toNat ++ List.replicate (k.toNat - ds.length) '0'
    let part := ds.drop k.toNat
    whole ++ '.' :: (if part.isEmpty then ['0'] else part)

/-- One digit, the others behind a point, and an exponent that shows its sign. -/
def scientific (d : Decimal) : List Char :=
  let e := d.pointAt - 1
  let power := 'e' :: (if 0 ≤ e then '+' else '-') :: Nat.toDigits 10 e.natAbs
  match d.digitChars with
  | [] => power
  | [c] => c :: power
  | c :: cs => c :: '.' :: cs ++ power

end Decimal

namespace Binary64

def signed (f : Binary64) (cs : List Char) : List Char := if f.negative then '-' :: cs else cs

/-- The text of a double: positional from `1e-5` to below `1e16`. -/
def text (f : Binary64) : List Char :=
  let d := f.shortest
  let e := d.pointAt - 1
  f.signed (if f.isZero ∨ (-5 ≤ e ∧ e < 16) then d.positional else d.scientific)

end Binary64

end WebResource
