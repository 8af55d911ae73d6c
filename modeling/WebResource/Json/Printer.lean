import WebResource.Binary64.Shortest
import WebResource.Json.Basic
import WebResource.Text.Hex

namespace WebResource

/-!
# Compact JSON text

No blanks between tokens. In strings only the quote, the backslash and the controls below U+0020
are escaped, with a letter where JSON has one.
-/

namespace Json

def ascii (cs : List Char) : Bytes := cs.map fun c => UInt8.ofNat c.toNat

def escapeLetter? (c : Char) : Option Char :=
  if c = '"' then some '"'
  else if c = '\\' then some '\\'
  else if c = '\n' then some 'n'
  else if c = '\r' then some 'r'
  else if c = '\t' then some 't'
  else if c.toNat = 0x08 then some 'b'
  else if c.toNat = 0x0C then some 'f'
  else none

def escapeChar (c : Char) : List Char :=
  match escapeLetter? c with
  | some l => ['\\', l]
  | none => if c.toNat < 0x20 then ['\\', 'u'] ++ Hex.padded 4 c.toNat else [c]

def renderString (s : String) : Bytes :=
  0x22 :: (Utf8.encodeChars (s.toList.flatMap escapeChar) ++ [0x22])

def intChars : Int → List Char
  | .ofNat n => Nat.toDigits 10 n
  | .negSucc n => '-' :: Nat.toDigits 10 (n + 1)

mutual

def render : Json → Bytes
  | .null => ascii ['n', 'u', 'l', 'l']
  | .bool true => ascii ['t', 'r', 'u', 'e']
  | .bool false => ascii ['f', 'a', 'l', 's', 'e']
  | .int i => ascii (intChars i)
  | .float f => ascii f.text
  | .str s => renderString s
  | .arr xs => 0x5B :: renderItems xs
  | .obj fs => 0x7B :: renderFields fs

def renderItems : List Json → Bytes
  | [] => [0x5D]
  | [x] => render x ++ [0x5D]
  | x :: y :: xs => render x ++ 0x2C :: renderItems (y :: xs)

def renderFields : List (String × Json) → Bytes
  | [] => [0x7D]
  | [(k, v)] => renderString k ++ 0x3A :: (render v ++ [0x7D])
  | (k, v) :: f :: fs => renderString k ++ 0x3A :: (render v ++ 0x2C :: renderFields (f :: fs))

end

def text (j : Json) : String := Utf8.decodeLossy j.render

end Json

end WebResource
