import WebResource.Text.Hex

namespace WebResource

/-!
# Percent coding

A byte outside the set that a writer keeps becomes `%` and two hexadecimal digits. Reading undoes
every complete escape and leaves anything else, a lone `%` included, as it stands.
-/

namespace Percent

def escape (b : UInt8) : Bytes :=
  [0x25, UInt8.ofNat (Hex.upper (b.toNat / 16)).toNat, UInt8.ofNat (Hex.upper (b.toNat % 16)).toNat]

def encodeBytes (keep : UInt8 → Bool) (bs : Bytes) : Bytes :=
  bs.flatMap fun b => if keep b then [b] else escape b

def decodeBytes : Bytes → Bytes
  | [] => []
  | b :: bs =>
    if b = 0x25 then
      match bs with
      | h :: l :: rest =>
        match Hex.value? h.toNat, Hex.value? l.toNat with
        | some x, some y => UInt8.ofNat (16 * x + y) :: decodeBytes rest
        | _, _ => b :: decodeBytes (h :: l :: rest)
      | [h] => [b, h]
      | [] => [b]
    else b :: decodeBytes bs

def isDigit (b : UInt8) : Bool := 0x30 ≤ b && b ≤ 0x39

def isLetter (b : UInt8) : Bool := (0x41 ≤ b && b ≤ 0x5A) || (0x61 ≤ b && b ≤ 0x7A)

/-- Letters, digits and `-._~`, which mean themselves anywhere in a URI. -/
def isUnreserved (b : UInt8) : Bool :=
  isDigit b || isLetter b || b == 0x2D || b == 0x2E || b == 0x5F || b == 0x7E

/-- The ASCII text of bytes that a writer has made ASCII. -/
def text (bs : Bytes) : String := String.ofList (bs.map fun b => Char.ofNat b.toNat)

/-- Bytes that are neither a space nor a visible ASCII character. -/
def isControl (b : UInt8) : Bool := b < 0x20 || 0x7E < b

/-- The UTF-8 of a text with all but some bytes escaped. -/
def encodeText (keep : UInt8 → Bool) (cs : List Char) : String :=
  text (encodeBytes keep (Utf8.encodeChars cs))

/-- A text as one path segment: everything but the unreserved characters is escaped. -/
def encodeSegment (s : String) : String := encodeText isUnreserved s.toList

/-- The text of a path segment without its escapes, or the segment itself if they do not spell
UTF-8. -/
def decodeSegment (s : String) : String :=
  match Utf8.decode? (decodeBytes (Utf8.encode s)) with
  | some t => t
  | none => s

end Percent

end WebResource
