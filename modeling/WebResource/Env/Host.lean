import WebResource.DomainName.Basic
import WebResource.Text.Percent

namespace WebResource

/-!
# Hosts of URLs

A host is a name or an address. The schemes of the web read names in small letters and in ASCII, and
take a name that ends in a number for an IPv4 address; other schemes only escape what they are given.
-/

inductive UrlError where
  | relative
  | emptyHost
  | badPort
  | badIpv4
  | badIpv6
  | badName
  | badNameChar
  deriving DecidableEq, Repr

namespace UrlError

def message : UrlError → String
  | .relative => "relative URL without a base"
  | .emptyHost => "empty host"
  | .badPort => "invalid port number"
  | .badIpv4 => "invalid IPv4 address"
  | .badIpv6 => "invalid IPv6 address"
  | .badName => "invalid international domain name"
  | .badNameChar => "invalid domain character"

end UrlError

namespace Host

/-! ## IPv4 -/

/-- A number in decimal, octal after `0` or hexadecimal after `0x`. -/
def ipv4Number (cs : List Char) : Option Nat :=
  let digits (base : Nat) (cs : List Char) : Option Nat :=
    cs.foldl (fun acc c => do
      let n ← acc
      let d ← Hex.value? c.toNat
      if d < base then return base * n + d else none) (some 0)
  match cs with
  | [] => none
  | '0' :: 'x' :: ds => digits 16 ds
  | '0' :: d :: ds => digits 8 (d :: ds)
  | ds => digits 10 ds

def ipv4Parts : List Nat → Option Nat
  | [] => none
  | [n] => some n
  | parts =>
    let k := parts.length
    let last := parts.getLast?.getD 0
    if 4 < k ∨ (parts.dropLast.any (255 < ·)) ∨ Nat.pow 256 (5 - k) ≤ last then none
    else some (parts.dropLast.zipIdx.foldl (fun sum (n, i) => sum + n * Nat.pow 256 (3 - i)) last)

def dropEmptyEnd (labels : List (List Char)) : List (List Char) :=
  if 1 < labels.length ∧ labels.getLast? = some [] then labels.dropLast else labels

/-- Whether a host ends in a number, and so has to be an address. -/
def endsInNumber (labels : List (List Char)) : Bool :=
  match labels.getLast? with
  | some l => (!l.isEmpty && l.all Char.isDigit) || (ipv4Number l).isSome
  | none => false

def ipv4Text (n : Nat) : String :=
  s!"{n / 16777216 % 256}.{n / 65536 % 256}.{n / 256 % 256}.{n % 256}"

def readIpv4 (labels : List (List Char)) : Except UrlError String :=
  match labels.mapM ipv4Number with
  | none => .error .badIpv4
  | some ns =>
    match ipv4Parts ns with
    | some n => if n < Nat.pow 2 32 then .ok (ipv4Text n) else .error .badIpv4
    | none => .error .badIpv4

/-! ## IPv6 -/

def ipv6Piece (cs : List Char) : Option Nat :=
  if cs.isEmpty ∨ 4 < cs.length then none
  else cs.foldl (fun acc c => do return 16 * (← acc) + (← Hex.value? c.toNat)) (some 0)

/-- A part of an IPv4 address: at most 255 in decimal, without leading zeros. -/
def quadPart (cs : List Char) : Option Nat :=
  if cs.isEmpty ∨ !cs.all Char.isDigit ∨ (1 < cs.length ∧ cs.head? = some '0') then none
  else (ipv4Number cs).bind fun n => if n ≤ 255 then some n else none

/-- The pieces before `::`. -/
def ipv6Front (cs : List Char) : Option (List Nat) :=
  if cs.isEmpty then some [] else (Text.splitOn ':' cs).mapM ipv6Piece

/-- The two pieces for which an IPv4 address may stand. -/
def quadPieces (cs : List Char) : Option (List Nat) := do
  match ← (Text.splitOn '.' cs).mapM quadPart with
  | [a, b, c, d] => return [a * 256 + b, c * 256 + d]
  | _ => none

/-- The pieces up to the end; an IPv4 address may stand for the last two. -/
def ipv6Back (cs : List Char) : Option (List Nat) :=
  let parts := Text.splitOn ':' cs
  let last := parts.getLast?.getD []
  if last.contains '.' then do
    return (← parts.dropLast.mapM ipv6Piece) ++ (← quadPieces last)
  else ipv6Front cs

/-- The two sides of the first `::`. -/
def cutGap : List Char → Option (List Char × List Char)
  | ':' :: ':' :: cs => some ([], cs)
  | c :: cs => (cutGap cs).map fun (l, r) => (c :: l, r)
  | [] => none

def ipv6Pieces (cs : List Char) : Option (List Nat) :=
  match cutGap cs with
  | none => (ipv6Back cs).bind fun ps => if ps.length = 8 then some ps else none
  | some (l, r) => do
    let l ← ipv6Front l
    let r ← ipv6Back r
    if l.length + r.length < 8 then
      return l ++ List.replicate (8 - l.length - r.length) 0 ++ r
    else none

def zeroRun : List Nat → Nat
  | 0 :: ps => zeroRun ps + 1
  | _ => 0

/-- Where the longest run of zeros starts, and its length. -/
def longestRun : Nat → List Nat → Nat × Nat
  | _, [] => (0, 0)
  | i, p :: ps =>
    let here := zeroRun (p :: ps)
    let (j, n) := longestRun (i + 1) ps
    if n ≤ here then (i, here) else (j, n)

def hexPieces (ps : List Nat) : String :=
  ":".intercalate (ps.map fun p => String.ofList (Hex.digits p))

def ipv6Text (ps : List Nat) : String :=
  let (i, n) := longestRun 0 ps
  if n < 2 then hexPieces ps else hexPieces (ps.take i) ++ "::" ++ hexPieces (ps.drop (i + n))

/-! ## Names -/

/-- A name in ASCII, or the address that it is. -/
def readName (name : List Char) : Except UrlError String :=
  match DomainName.toAscii name with
  | none => .error .badName
  | some [] => .error .emptyHost
  | some host =>
    let labels := dropEmptyEnd (Text.splitOn '.' host)
    if endsInNumber labels then readIpv4 labels else .ok (String.ofList host)

/-- Characters that cannot stand in a host that is only escaped. -/
def opaqueForbids (c : Char) : Bool :=
  c.toNat = 0 || " #/:<>?@[\\]^|".toList.contains c

def read (isSpecial : Bool) (cs : List Char) : Except UrlError String :=
  match cs with
  | '[' :: rest =>
    if rest.getLast? = some ']' then
      match ipv6Pieces rest.dropLast with
      | some ps => .ok s!"[{ipv6Text ps}]"
      | none => .error .badIpv6
    else .error .badIpv6
  | cs =>
    if isSpecial then
      match Utf8.decode? (Percent.decodeBytes (Utf8.encodeChars cs)) with
      | none => .error .badName
      | some name => readName name.toList
    else if cs.any opaqueForbids then .error .badNameChar
    else .ok (Percent.encodeText (fun b => !Percent.isControl b) cs)

end Host

end WebResource
