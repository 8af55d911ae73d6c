namespace WebResource

/-!
# UTF-8

Encoding one character at a time, and a recogniser that reads one byte at a time, so that a text
cut anywhere inside a character can be taken up again. The strict reading refuses what is not
well formed, the lossy one puts U+FFFD for each maximal part that cannot be continued.
-/

abbrev Bytes := List UInt8

namespace Utf8

def encodeNat (n : Nat) : Bytes :=
  if n < 0x80 then [UInt8.ofNat n]
  else if n < 0x800 then [UInt8.ofNat (0xC0 + n / 64), UInt8.ofNat (0x80 + n % 64)]
  else if n < 0x10000 then
    [UInt8.ofNat (0xE0 + n / 4096), UInt8.ofNat (0x80 + n / 64 % 64), UInt8.ofNat (0x80 + n % 64)]
  else
    [UInt8.ofNat (0xF0 + n / 262144), UInt8.ofNat (0x80 + n / 4096 % 64),
      UInt8.ofNat (0x80 + n / 64 % 64), UInt8.ofNat (0x80 + n % 64)]

def encodeChar (c : Char) : Bytes := encodeNat c.toNat

def encodeChars (cs : List Char) : Bytes := cs.flatMap encodeChar

def encode (s : String) : Bytes := encodeChars s.toList

/-- Between characters, or inside one: `left + 1` bytes are missing, `acc` holds the bits read so
far, and the next byte has to lie between `lo` and `hi`. -/
inductive State where
  | idle
  | inside (left acc lo hi : Nat)
  deriving DecidableEq, Repr

inductive Lead where
  | char (c : Char)
  | opens (s : State)
  | bad
  deriving DecidableEq, Repr

/-- What a byte means between characters. The bounds on the second byte keep out overlong forms,
surrogates and code points above U+10FFFF. -/
def lead (b : UInt8) : Lead :=
  let n := b.toNat
  if n < 0x80 then .char (Char.ofNat n)
  else if n < 0xC2 then .bad
  else if n < 0xE0 then .opens (.inside 0 (n - 0xC0) 0x80 0xBF)
  else if n = 0xE0 then .opens (.inside 1 0 0xA0 0xBF)
  else if n = 0xED then .opens (.inside 1 0xD 0x80 0x9F)
  else if n < 0xF0 then .opens (.inside 1 (n - 0xE0) 0x80 0xBF)
  else if n = 0xF0 then .opens (.inside 2 0 0x90 0xBF)
  else if n < 0xF4 then .opens (.inside 2 (n - 0xF0) 0x80 0xBF)
  else if n = 0xF4 then .opens (.inside 2 4 0x80 0x8F)
  else .bad

def decodeFrom : State → Bytes → Option (List Char)
  | .idle, [] => some []
  | .inside _ _ _ _, [] => none
  | .idle, b :: bs =>
    match lead b with
    | .char c => (decodeFrom .idle bs).map (c :: ·)
    | .opens s => decodeFrom s bs
    | .bad => none
  | .inside left acc lo hi, b :: bs =>
    if lo ≤ b.toNat ∧ b.toNat ≤ hi then
      let acc := acc * 64 + b.toNat % 64
      match left with
      | 0 => (decodeFrom .idle bs).map (Char.ofNat acc :: ·)
      | left + 1 => decodeFrom (.inside left acc 0x80 0xBF) bs
    else none

/-- The text that the bytes encode, if they are well formed. -/
def decode? (bs : Bytes) : Option String := (decodeFrom .idle bs).map String.ofList

/-- The length of the longest prefix of whole characters, for a reading that has passed `whole`
bytes of whole characters and `part` bytes of one more. -/
def validLengthFrom : State → (whole part : Nat) → Bytes → Nat
  | .idle, whole, _, [] => whole
  | .inside _ _ _ _, whole, _, [] => whole
  | .idle, whole, _, b :: bs =>
    match lead b with
    | .char _ => validLengthFrom .idle (whole + 1) 0 bs
    | .opens s => validLengthFrom s whole 1 bs
    | .bad => whole
  | .inside left acc lo hi, whole, part, b :: bs =>
    if lo ≤ b.toNat ∧ b.toNat ≤ hi then
      match left with
      | 0 => validLengthFrom .idle (whole + part + 1) 0 bs
      | left + 1 =>
        validLengthFrom (.inside left (acc * 64 + b.toNat % 64) 0x80 0xBF) whole (part + 1) bs
    else whole

def validLength (bs : Bytes) : Nat := validLengthFrom .idle 0 0 bs

def replacement : Char := Char.ofNat 0xFFFD

def lossyLead (b : UInt8) : State × List Char :=
  match lead b with
  | .char c => (.idle, [c])
  | .opens s => (s, [])
  | .bad => (.idle, [replacement])

def lossyFrom : State → Bytes → List Char
  | .idle, [] => []
  | .inside _ _ _ _, [] => [replacement]
  | .idle, b :: bs =>
    let (s, cs) := lossyLead b
    cs ++ lossyFrom s bs
  | .inside left acc lo hi, b :: bs =>
    if lo ≤ b.toNat ∧ b.toNat ≤ hi then
      let acc := acc * 64 + b.toNat % 64
      match left with
      | 0 => Char.ofNat acc :: lossyFrom .idle bs
      | left + 1 => lossyFrom (.inside left acc 0x80 0xBF) bs
    else
      let (s, cs) := lossyLead b
      replacement :: (cs ++ lossyFrom s bs)

def decodeLossy (bs : Bytes) : String := String.ofList (lossyFrom .idle bs)

end Utf8

end WebResource
