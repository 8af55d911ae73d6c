import WebResource.Text.Split

namespace WebResource

/-!
# Punycode

The labels of a host name in ASCII. What is ASCII already comes first. Every other character is told
by the number of steps to it, where a step goes on to the next place of the label and, behind the
last one, to the first place with the next code point. Step counts are written in base 36, the
lowest digit first, and end with the first digit below a threshold that adapts to their size.
-/

namespace Punycode

def digit (d : Nat) : Char := if d < 26 then Char.ofNat (0x61 + d) else Char.ofNat (0x16 + d)

def digitValue? (c : Char) : Option Nat :=
  if 0x61 ≤ c.toNat ∧ c.toNat ≤ 0x7A then some (c.toNat - 0x61)
  else if 0x30 ≤ c.toNat ∧ c.toNat ≤ 0x39 then some (c.toNat - 0x16)
  else none

/-- The least digit that shows that more follow, at the place `k / 36`. -/
def threshold (bias k : Nat) : Nat :=
  if k ≤ bias then 1 else if bias + 26 ≤ k then 26 else k - bias

theorem threshold_pos (bias k : Nat) : 0 < threshold bias k := by
  unfold threshold
  repeat' split
  all_goals omega

def steps (bias k q : Nat) : List Char :=
  let t := threshold bias k
  if q < t then [digit q]
  else digit (t + (q - t) % (36 - t)) :: steps bias (k + 36) ((q - t) / (36 - t))
termination_by q
decreasing_by
  have ht := threshold_pos bias k
  exact Nat.lt_of_le_of_lt (Nat.div_le_self _ _) (by omega)

def scale (delta k : Nat) : Nat :=
  if 455 < delta then scale (delta / 35) (k + 36) else k + 36 * delta / (delta + 38)
termination_by delta
decreasing_by exact Nat.div_lt_self (by omega) (by omega)

/-- The bias after a count of steps, with so many characters written. -/
def adapt (first : Bool) (count written : Nat) : Nat :=
  let d := if first then count / 700 else count / 2
  scale (d + d / written) 0

/-! ## Writing -/

structure Scan where
  text : List Char
  gap : Nat
  bias : Nat
  written : Nat

/-- Goes over one place of the label, writing the character if its code point is `m`. -/
def Scan.pass (basic m : Nat) (s : Scan) (c : Char) : Scan :=
  if c.toNat < m then { s with gap := s.gap + 1 }
  else if c.toNat = m then
    ⟨s.text ++ steps s.bias 36 s.gap, 0, adapt (s.written == basic) s.gap (s.written + 1),
      s.written + 1⟩
  else s

/-- Goes over the label once for each code point. -/
def Scan.passes (basic : Nat) (label : List Char) : (codes : List Nat) → (next : Nat) → Scan → Scan
  | [], _, s => s
  | m :: ms, next, s =>
    let s := label.foldl (pass basic m) { s with gap := s.gap + (m - next) * (s.written + 1) }
    passes basic label ms (m + 1) { s with gap := s.gap + 1 }

def isAscii (c : Char) : Bool := c.toNat < 0x80

def codes (label : List Char) : List Nat :=
  ((label.filter fun c => !isAscii c).map Char.toNat).mergeSort.eraseReps

def encode (label : List Char) : List Char :=
  let ascii := label.filter isAscii
  let basic := ascii.length
  (if ascii.isEmpty then [] else ascii ++ ['-']) ++
    (Scan.passes basic label (codes label) 128 ⟨[], 0, 72, basic⟩).text

/-! ## Reading -/

/-- A label that is being read: the next character comes after the place `place`, counted from the
start of the label in round `code`, once the number that began at `start` is complete. Of that
number the digits up to the weight `weight` have been added. -/
structure Reading where
  label : List Char
  code : Nat
  bias : Nat
  start : Nat
  place : Nat
  column : Nat
  weight : Nat

namespace Reading

def begin (basic : List Char) : Reading := ⟨basic, 128, 72, 0, 0, 36, 1⟩

/-- Numbers have to fit 32 bits. -/
def limit : Nat := 4294967296

def insert (r : Reading) (place : Nat) : Option Reading :=
  let size := r.label.length + 1
  let code := r.code + place / size
  if code < 0xD800 ∨ (0xDFFF < code ∧ code < 0x110000) then
    let i := place % size
    some ⟨r.label.insertIdx i (Char.ofNat code), code, adapt (r.start == 0) (place - r.start) size,
      i + 1, i + 1, 36, 1⟩
  else none

def step (r : Reading) (c : Char) : Option Reading :=
  match digitValue? c with
  | none => none
  | some d =>
    let place := r.place + d * r.weight
    let t := threshold r.bias r.column
    let weight := r.weight * (36 - t)
    if limit ≤ place then none
    else if d < t then r.insert place
    else if limit ≤ weight then none
    else some { r with place := place, column := r.column + 36, weight := weight }

/-- Whether the last number is complete. -/
def isComplete (r : Reading) : Bool := r.column == 36

end Reading

def decode? (cs : List Char) : Option (List Char) :=
  let (basic, numbers) :=
    match Text.cutLast '-' cs with
    | some (b :: basic, rest) => (b :: basic, rest)
    | _ => ([], cs)
  if basic.all isAscii then
    match numbers.foldlM Reading.step (Reading.begin basic) with
    | some r => if r.isComplete then some r.label else none
    | none => none
  else none

/-! ## Labels -/

def marker : List Char := "xn--".toList

def isBasic (cs : List Char) : Bool := cs.all isAscii

/-- A label of a host name, marked if it had to be encoded. -/
def label (cs : List Char) : List Char := if isBasic cs then cs else marker ++ encode cs

/-- What follows the mark of a label that was encoded. -/
def unmarked? (cs : List Char) : Option (List Char) :=
  if cs.take marker.length = marker then some (cs.drop marker.length) else none

end Punycode

end WebResource
