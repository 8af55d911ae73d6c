import WebResource.Text.Utf8

namespace WebResource

/-!
# Hexadecimal digits

Both letter cases are read; each writer chooses one.
-/

namespace Hex

def lower (n : Nat) : Char :=
  if n < 10 then Char.ofNat (0x30 + n) else Char.ofNat (0x57 + n)

def upper (n : Nat) : Char :=
  if n < 10 then Char.ofNat (0x30 + n) else Char.ofNat (0x37 + n)

/-- The value of the digit whose code is `n`. -/
def value? (n : Nat) : Option Nat :=
  if 0x30 ≤ n ∧ n ≤ 0x39 then some (n - 0x30)
  else if 0x41 ≤ n ∧ n ≤ 0x46 then some (n - 0x37)
  else if 0x61 ≤ n ∧ n ≤ 0x66 then some (n - 0x57)
  else none

theorem value?_lower {n : Nat} (h : n < 16) : value? (lower n).toNat = some n := by
  have : ∀ m : Fin 16, value? (lower m).toNat = some m.val := by decide
  exact this ⟨n, h⟩

theorem value?_upper {n : Nat} (h : n < 16) : value? (upper n).toNat = some n := by
  have : ∀ m : Fin 16, value? (upper m).toNat = some m.val := by decide
  exact this ⟨n, h⟩

/-- The digits of `n` without leading zeros, at least one. -/
def digits (n : Nat) : List Char := Nat.toDigits 16 n

def padded : (count : Nat) → Nat → List Char
  | 0, _ => []
  | count + 1, n => padded count (n / 16) ++ [lower (n % 16)]

def byte (b : UInt8) : List Char := [lower (b.toNat / 16), lower (b.toNat % 16)]

end Hex

end WebResource
