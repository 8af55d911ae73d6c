import WebResource.Text.Percent
import WebResource.Text.Split

namespace WebResource

/-!
# Form fields

Name and value pairs as `name=value` joined by `&`. A space is written `+`; letters, digits and
`*-._` stand for themselves and every other byte is percent coded. Reading skips empty pieces and
puts U+FFFD for what is not UTF-8.
-/

namespace Form

def isPlain (b : UInt8) : Bool :=
  Percent.isDigit b || Percent.isLetter b || b == 0x2A || b == 0x2D || b == 0x2E || b == 0x5F

def encodeByte (b : UInt8) : Bytes :=
  if b = 0x20 then [0x2B] else if isPlain b then [b] else Percent.escape b

def encodeText (s : String) : Bytes := (Utf8.encode s).flatMap encodeByte

def encodePair (p : String × String) : Bytes := encodeText p.1 ++ 0x3D :: encodeText p.2

def encode (ps : List (String × String)) : Bytes := Text.joinWith 0x26 (ps.map encodePair)

def plusToSpace (bs : Bytes) : Bytes := bs.map fun b => if b = 0x2B then 0x20 else b

def decodeText (bs : Bytes) : String := Utf8.decodeLossy (Percent.decodeBytes (plusToSpace bs))

def decodePair (bs : Bytes) : String × String :=
  match Text.cut 0x3D bs with
  | some (n, v) => (decodeText n, decodeText v)
  | none => (decodeText bs, "")

def decode (bs : Bytes) : List (String × String) :=
  ((Text.splitOn 0x26 bs).filter fun p => !p.isEmpty).map decodePair

end Form

end WebResource
