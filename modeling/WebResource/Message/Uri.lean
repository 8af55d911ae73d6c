import WebResource.Text.Utf8

namespace WebResource

/-!
# Request targets

The URIs that a request may carry: an absolute path with a query, an asterisk, an authority alone,
or all of it behind a scheme. A fragment is dropped.
-/

structure Uri where
  scheme : Option String
  authority : Option String
  /-- As written: it may be empty behind an authority. -/
  rawPath : String
  query : Option String
  deriving DecidableEq, Repr

inductive UriError where
  | empty
  | badChar
  | badAuthority
  | badFormat
  | tooLong
  | schemeTooLong
  deriving DecidableEq, Repr

namespace UriError

def message : UriError → String
  | .empty => "empty string"
  | .badChar => "invalid uri character"
  | .badAuthority => "invalid authority"
  | .badFormat => "invalid format"
  | .tooLong => "uri too long"
  | .schemeTooLong => "scheme too long"

end UriError

namespace Uri

def path (u : Uri) : String :=
  if u.rawPath = "" then if u.scheme.isSome then "/" else "" else u.rawPath

/-- What follows the path. -/
def queryText (u : Uri) : String :=
  match u.query with
  | some q => "?" ++ q
  | none => ""

def render (u : Uri) : String :=
  (match u.scheme with
    | some s => s ++ "://"
    | none => "") ++ u.authority.getD "" ++ u.path ++ u.queryText

def inRange (lo hi : Nat) (c : Char) : Bool := lo ≤ c.toNat && c.toNat ≤ hi

-- The delete character `0x7F` is refused in a path and in a query; what is above it is not.
def isPathChar (c : Char) : Bool :=
  c.toNat = 0x21 || c.toNat = 0x22 || inRange 0x24 0x3B c || c.toNat = 0x3D || inRange 0x40 0x5F c ||
    inRange 0x61 0x7E c || 0x80 ≤ c.toNat

def isQueryChar (c : Char) : Bool :=
  c.toNat = 0x21 || inRange 0x24 0x3B c || c.toNat = 0x3D || inRange 0x3F 0x7E c ||
    0x80 ≤ c.toNat

def beforeFragment (cs : List Char) : List Char := cs.takeWhile (· != '#')

def readTarget (cs : List Char) : Except UriError (String × Option String) :=
  let path := cs.takeWhile fun c => c != '?' && c != '#'
  let rest := cs.drop path.length
  if !path.all isPathChar then .error .badChar
  else
    match rest with
    | '?' :: q =>
      let q := beforeFragment q
      if q.all isQueryChar then .ok (String.ofList path, some (String.ofList q))
      else .error .badChar
    | _ => .ok (String.ofList path, none)

/-- The same target with another path. There is none if the path cannot stand in a target, or if the
target is an authority alone, which has no path. -/
def withPath (u : Uri) (path : String) : Option Uri :=
  match readTarget (path ++ u.queryText).toList with
  | .error _ => none
  | .ok (path, query) =>
    if u.scheme.isNone && u.authority.isSome then none else some { u with rawPath := path, query }

def isSchemeChar (c : Char) : Bool :=
  c.isAlphanum || c = '+' || c = '-' || c = '.' || c = '~'

/-- The scheme and what follows `://`. -/
def splitScheme (cs : List Char) : Except UriError (Option (String × List Char)) :=
  let name := cs.takeWhile isSchemeChar
  let rest := cs.drop name.length
  let lower := name.map Char.toLower
  if rest.take 3 = [':', '/', '/'] ∧ 3 < cs.length then
    if lower = "http".toList ∨ lower = "https".toList then
      .ok (some (String.ofList lower, rest.drop 3))
    else if 64 < name.length then .error .schemeTooLong
    else .ok (some (String.ofList name, rest.drop 3))
  else .ok none

/-- What has been seen of an authority. -/
structure AuthorityScan where
  colons : Nat
  opened : Bool
  closed : Bool
  percent : Bool
  afterAt : Bool

def isAuthorityChar (c : Char) : Bool :=
  c.isAlphanum || "!$&'()*+,-.;=_~".toList.contains c

/-- The length of the authority at the front of a text. -/
def scanAuthority (s : AuthorityScan) (n : Nat) : List Char → Except UriError Nat
  | [] => finish s n
  | c :: cs =>
    if c = '/' ∨ c = '?' ∨ c = '#' then finish s n
    else if c = ':' then
      if 8 ≤ s.colons then .error .badAuthority
      else scanAuthority { s with colons := s.colons + 1, afterAt := false } (n + 1) cs
    else if c = '[' then
      if s.percent || s.opened then .error .badAuthority
      else scanAuthority { s with opened := true, afterAt := false } (n + 1) cs
    else if c = ']' then
      if !s.opened || s.closed then .error .badAuthority
      else scanAuthority { s with closed := true, colons := 0, percent := false, afterAt := false } (n + 1) cs
    else if c = '@' then
      scanAuthority { s with colons := 0, percent := false, afterAt := true } (n + 1) cs
    else if c = '%' then scanAuthority { s with percent := true, afterAt := false } (n + 1) cs
    else if isAuthorityChar c then scanAuthority { s with afterAt := false } (n + 1) cs
    else .error .badChar
where
  finish (s : AuthorityScan) (n : Nat) : Except UriError Nat :=
    if s.opened != s.closed then .error .badAuthority
    else if 1 < s.colons then .error .badAuthority
    else if s.afterAt then .error .badAuthority
    else if s.percent then .error .badAuthority
    else .ok n

def authorityLength (cs : List Char) : Except UriError Nat :=
  scanAuthority ⟨0, false, false, false, false⟩ 0 cs

def maxLength : Nat := 65534

def parseChars (cs : List Char) : Except UriError Uri :=
  match cs with
  | [] => .error .empty
  | ['*'] => .ok ⟨none, none, "*", none⟩
  | ['?'] => .error .badChar
  | ['#'] => .error .badChar
  | '/' :: _ => (readTarget cs).map fun (p, q) => ⟨none, none, p, q⟩
  | _ =>
    match splitScheme cs with
    | .error e => .error e
    | .ok none =>
      match authorityLength cs with
      | .error e => .error e
      | .ok n =>
        if n = cs.length then .ok ⟨none, some (String.ofList cs), "", none⟩ else .error .badFormat
    | .ok (some (_, [])) => .error .empty
    | .ok (some (scheme, rest)) =>
      match authorityLength rest with
      | .error e => .error e
      | .ok 0 => .error .badFormat
      | .ok n =>
        (readTarget (rest.drop n)).map fun (p, q) =>
          ⟨some scheme, some (String.ofList (rest.take n)), p, q⟩

def parse (s : String) : Except UriError Uri :=
  if maxLength < s.utf8ByteSize then .error .tooLong else parseChars s.toList

end Uri

end WebResource
