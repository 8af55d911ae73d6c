import WebResource.Env.Host
import WebResource.Env.Url.Path

namespace WebResource

/-!
# Absolute URLs

Reads a URL and writes it in its normal form: scheme and host in lower case, no default port, no
dot segments, escapes where a part does not allow a character.
-/

namespace Url

def special : List (String × Option Nat) :=
  [("http", some 80), ("https", some 443), ("ws", some 80), ("wss", some 443), ("ftp", some 21),
    ("file", none)]

def isSpecial (scheme : String) : Bool := special.any (·.1 == scheme)

def defaultPort (scheme : String) : Option Nat := (special.find? (·.1 == scheme)).bind (·.2)

/-! ## Authorities -/

def isSlash (isSpecial : Bool) (c : Char) : Bool := c = '/' || (isSpecial && c = '\\')

def userInfo (cs : List Char) : String :=
  match Text.cut ':' cs with
  | none => if cs.isEmpty then "" else Percent.encodeText userKeeps cs ++ "@"
  | some (u, p) =>
    if u.isEmpty ∧ p.isEmpty then ""
    else if p.isEmpty then Percent.encodeText userKeeps u ++ "@"
    else Percent.encodeText userKeeps u ++ ":" ++ Percent.encodeText userKeeps p ++ "@"

/-- The host at the front of a text: it ends at a slash, or at a colon outside brackets. -/
def hostSpan (isSpecial inBrackets : Bool) : List Char → List Char
  | [] => []
  | c :: cs =>
    if (c = ':' && !inBrackets) || isSlash isSpecial c then []
    else c :: hostSpan isSpecial (if c = '[' then true else if c = ']' then false else inBrackets) cs

/-- The port at the front of a text that does not name the usual one, and the path behind it. -/
def readPort (scheme : String) (cs : List Char) : Except UrlError (String × List Char) :=
  match cs with
  | ':' :: cs =>
    let digits := cs.takeWhile Char.isDigit
    let path := cs.drop digits.length
    let n := digits.foldl (fun n c => 10 * n + (c.toNat - 48)) 0
    if 65535 < n ∨ path.head?.any fun c => !isSlash true c then .error .badPort
    else if digits.isEmpty ∨ defaultPort scheme = some n then .ok ("", path)
    else .ok (s!":{n}", path)
  | path => .ok ("", path)

/-- The part before the last `@` of an authority, and what follows it. -/
def splitUser (isSpecial : Bool) (cs : List Char) : Option (List Char × List Char) :=
  let authority := cs.takeWhile fun c => !isSlash isSpecial c
  (Text.cutLast '@' authority).map fun (user, host) => (user, host ++ cs.drop authority.length)

/-- The authority at the front of a text and the path behind it. Only outside the schemes of the web
may the host be missing, and not with a user or a port, nor behind an `@` unless that ends the URL;
`isLast` says that no query or fragment follows. -/
def readAuthority (scheme : String) (isLast : Bool) (cs : List Char) :
    Except UrlError (String × List Char) := do
  let special := isSpecial scheme
  let (user, rest) := (splitUser special cs).getD ([], cs)
  let host := hostSpan special false rest
  let behind := rest.drop host.length
  let noUser := rest.length < cs.length ∧ user.isEmpty ∧ !(behind.isEmpty && isLast)
  if host.isEmpty ∧ (special ∨ noUser ∨ userInfo user ≠ "" ∨ behind.head? = some ':') then
    throw .emptyHost
  let host ← Host.read special host
  let (port, path) ← readPort scheme behind
  return (userInfo user ++ host ++ port, path)

/-! ## Files -/

/-- What follows the scheme of a file: a host stays only if the path does not start with a drive. -/
def readFile (cs : List Char) : Except UrlError String :=
  match cs.map slashed with
  | '/' :: '/' :: rest => do
    let host := rest.takeWhile (· != '/')
    let name ← if host.isEmpty ∨ isDrive host then pure "" else Host.read true host
    if name = "" ∨ name = "localhost" then
      let path := if isDrive host then rest else rest.drop host.length
      return "//" ++ renderFilePath (resolve true [] (Text.splitOn '/' path))
    else
      let path := resolve true [] (segments (rest.drop host.length))
      return "//" ++ (if path.head?.any isDrive then "" else name) ++ renderFilePath path
  | rest => .ok ("//" ++ renderFilePath (resolve true [] (segments rest)))

/-! ## The whole -/

def tailText (isSpecial : Bool) (query fragment : Option (List Char)) : String :=
  (match query with
    | some q => "?" ++ Percent.encodeText (if isSpecial then specialQueryKeeps else queryKeeps) q
    | none => "") ++
  (match fragment with
    | some f => "#" ++ Percent.encodeText fragmentKeeps f
    | none => "")

def splitScheme (cs : List Char) : Option (String × List Char) :=
  match Text.cut ':' cs with
  | some (name, rest) =>
    match name with
    | c :: _ =>
      if c.isAlpha ∧ name.all fun c => c.isAlphanum || c = '+' || c = '-' || c = '.' then
        some (String.ofList (name.map Char.toLower), rest)
      else none
    | [] => none
  | none => none

def isTrimmed (c : Char) : Bool := c.toNat ≤ 0x20

def parse (s : String) : Except UrlError String :=
  let cs := ((s.toList.dropWhile isTrimmed).reverse.dropWhile isTrimmed).reverse
  let cs := cs.filter fun c => c != '\t' && c != '\n' && c != '\r'
  match splitScheme cs with
  | none => .error .relative
  | some (scheme, rest) =>
    let special := isSpecial scheme
    let (rest, fragment) := match Text.cut '#' rest with
      | some (l, r) => (l, some r)
      | none => (rest, none)
    let (rest, query) := match Text.cut '?' rest with
      | some (l, r) => (l, some r)
      | none => (rest, none)
    let tail := tailText special query fragment
    let behindSlashes (cs : List Char) : Except UrlError String := do
      let (authority, path) ← readAuthority scheme (query.isNone && fragment.isNone) cs
      return s!"//{authority}{readPath special (if special then path.map slashed else path)}"
    let body :=
      if scheme = "file" then readFile rest
      else if special then behindSlashes (rest.dropWhile (isSlash true))
      else
        match rest with
        | '/' :: '/' :: cs => behindSlashes cs
        | '/' :: cs => .ok (readRootPath ('/' :: cs))
        | cs => .ok (Percent.encodeText (fun b => !Percent.isControl b) cs)
    body.map fun text => s!"{scheme}:{text}{tail}"

end Url

end WebResource
