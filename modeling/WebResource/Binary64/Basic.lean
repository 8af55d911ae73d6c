namespace WebResource

/-!
# Double precision numbers

A finite double is a sign and `mantissa * 2 ^ scale`, counted in units of `2 ^ -1074`. All
arithmetic is one exact operation on natural numbers followed by one rounding to the nearest
double, a tie going to the even mantissa.
-/

structure Binary64 where
  negative : Bool
  mantissa : Nat
  scale : Nat
  deriving DecidableEq, Repr

namespace Binary64

/-- The unit is `2 ^ -unitLog`. -/
def unitLog : Nat := 1074

def mantissaBound : Nat := Nat.pow 2 53

def maxScale : Nat := 2045

def zero (negative : Bool) : Binary64 := ⟨negative, 0, 0⟩

def isZero (f : Binary64) : Bool := f.mantissa == 0

/-- `n / d` to the nearest natural number, a tie going to the even one. -/
def roundDiv (n d : Nat) : Nat :=
  let q := n / d
  let r := n % d
  if 2 * r < d then q else if d < 2 * r then q + 1 else q + q % 2

/-- The double nearest to `n / d`, if it is finite. -/
def ofRatio (negative : Bool) (n d : Nat) : Option Binary64 :=
  let units := n * Nat.pow 2 unitLog
  let scale := (units / d).log2 - 52
  let m := roundDiv units (d * Nat.pow 2 scale)
  let (m, scale) := if m = mantissaBound then (Nat.pow 2 52, scale + 1) else (m, scale)
  if maxScale < scale then none else some ⟨negative, m, scale⟩

def ofNat (n : Nat) : Option Binary64 := ofRatio false n 1

def mul (f g : Binary64) : Option Binary64 :=
  ofRatio (f.negative != g.negative) (f.mantissa * g.mantissa * Nat.pow 2 (f.scale + g.scale))
    (Nat.pow 2 (2 * unitLog))

def div (f g : Binary64) : Option Binary64 :=
  ofRatio (f.negative != g.negative) (f.mantissa * Nat.pow 2 f.scale) (g.mantissa * Nat.pow 2 g.scale)

def topPow : Nat := 308

/-- The double nearest to a power of ten. -/
def tenPow (k : Nat) : Option Binary64 := ofNat (Nat.pow 10 k)

def divTenPow (f : Binary64) (k : Nat) : Option Binary64 := (tenPow k).bind f.div

/-- `f / 10 ^ n`, the first `steps` quotients by the top power of ten. -/
def shrink : (steps : Nat) → Binary64 → (n : Nat) → Option Binary64
  | 0, f, n => f.divTenPow n
  | steps + 1, f, n =>
    if f.isZero then some f
    else
      match f.divTenPow topPow with
      | some g => shrink steps g (n - topPow)
      | none => none

/-- `f * 10 ^ e`, one rounding for the power and one for each product or quotient. Exponents below
the smallest power of ten are worked off in steps. -/
def timesTenPow (f : Binary64) : (e : Int) → Option Binary64
  | .ofNat n =>
    if n ≤ topPow then (tenPow n).bind f.mul else if f.isZero then some f else none
  | .negSucc n => shrink (n / topPow) f (n + 1)

end Binary64

end WebResource
