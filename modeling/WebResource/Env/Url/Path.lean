import WebResource.Text.Percent
import WebResource.Text.Split

namespace WebResource

/-!
# Paths of URLs

Which characters stand in a part of a URL without an escape, and how a path is read: as segments
between slashes, of which a dot stands for staying and two dots for leaving the one before. Drives
are never left, and a file path has no empty segment at its front.
-/

namespace Url

/-! ## Escapes -/

def oneOf (s : String) (b : UInt8) : Bool := (Utf8.encode s).contains b

def fragmentKeeps (b : UInt8) : Bool := !(Percent.isControl b || oneOf " \"<>`" b)

def queryKeeps (b : UInt8) : Bool := !(Percent.isControl b || oneOf " \"#<>" b)

def specialQueryKeeps (b : UInt8) : Bool := queryKeeps b && b != 0x27

def pathKeeps (b : UInt8) : Bool := queryKeeps b && !oneOf "?`\x7b\x7d" b

def userKeeps (b : UInt8) : Bool := pathKeeps b && !oneOf "/:;=@[\\]^|" b

/-! ## Segments -/

def isDot (cs : List Char) : Bool := [".", "%2e"].contains (String.ofList (cs.map Char.toLower))

def isDoubleDot (cs : List Char) : Bool :=
  ["..", ".%2e", "%2e.", "%2e%2e"].contains (String.ofList (cs.map Char.toLower))

def namesDrive (c d : Char) : Bool := c.isAlpha && (d = ':' || d = '|')

def isDrive (cs : List Char) : Bool :=
  match cs with
  | [c, d] => namesDrive c d
  | _ => false

/-- A drive, also with more behind a backslash, is not left by a dot segment. -/
def isKept (cs : List Char) : Bool :=
  match cs with
  | c :: d :: rest => namesDrive c d && (rest.isEmpty || rest.head? == some '\\')
  | _ => false

def leave : List (List Char) → List (List Char)
  | s :: done => if isKept s then s :: done else done
  | [] => []

/-- Goes into a segment. Below the root of a file path a drive is written with a colon. -/
def enter (isFile : Bool) (s : List Char) (done : List (List Char)) : List (List Char) :=
  if isFile && done.isEmpty && isDrive s then [s.take 1 ++ [':']] else s :: done

/-- Resolves dot segments; `done` holds the segments so far backwards. A dot segment at the end
leaves an empty one. -/
def resolve (isFile : Bool) (done : List (List Char)) : List (List Char) → List (List Char)
  | [] => done.reverse
  | [s] =>
    if isDoubleDot s then ([] :: leave done).reverse
    else if isDot s then ([] :: done).reverse
    else (enter isFile s done).reverse
  | s :: t :: ss =>
    if isDoubleDot s then resolve isFile (leave done) (t :: ss)
    else if isDot s then resolve isFile done (t :: ss)
    else resolve isFile (enter isFile s done) (t :: ss)

/-! ## Paths -/

def renderPath (segments : List (List Char)) : String :=
  String.join (segments.map fun s => "/" ++ Percent.encodeText pathKeeps s)

/-- The segments behind the slash with which a path starts, if it does. -/
def segments (cs : List Char) : List (List Char) :=
  Text.splitOn '/' (if cs.head? = some '/' then cs.drop 1 else cs)

/-- Takes a backslash for a slash. -/
def slashed (c : Char) : Char := if c = '\\' then '/' else c

def readPath (isSpecial : Bool) (cs : List Char) : String :=
  if cs.isEmpty then if isSpecial then "/" else ""
  else renderPath (resolve false [] (segments cs))

/-- A path without an authority before it. One that starts with an empty segment gets a dot segment
in front, lest that be read as an authority. -/
def readRootPath (cs : List Char) : String :=
  match resolve false [] (segments cs) with
  | [] :: s :: ss => "/." ++ renderPath ([] :: s :: ss)
  | ss => renderPath ss

/-- Drops empty segments at the front. -/
def renderFilePath (segments : List (List Char)) : String :=
  match segments.dropWhile List.isEmpty with
  | [] => "/"
  | ss => renderPath ss

end Url

end WebResource
