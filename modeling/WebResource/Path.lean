import WebResource.Text.Split

namespace WebResource

/-!
# Paths

A clean path is `/` and its segments joined by `/`: none of them is empty, `.` or `..`. A routing
position is a clean path with a mark in it, which moves over one segment at a time.
-/

namespace Path

/-- Reads one raw segment onto the segments passed so far, which are kept backwards. -/
def push (passed : List (List Char)) (s : List Char) : List (List Char) :=
  if s = [] ∨ s = ['.'] then passed
  else if s = ['.', '.'] then passed.tail
  else s :: passed

def cleanSegments (path : List Char) : List (List Char) :=
  ((Text.splitOn '/' path).foldl push []).reverse

/-- The segments that remain of a path. -/
def segments (path : String) : List String := (cleanSegments path.toList).map String.ofList

def render (segments : List String) : String :=
  String.ofList ('/' :: Text.joinWith '/' (segments.map String.toList))

/-- The absolute path without empty, `.` and `..` segments and without a trailing slash. A `..`
takes the segment before it away and has no effect at the root. -/
def clean (path : String) : String := render (segments path)

end Path

/-- How far the path of a request has been routed. -/
structure PathCursor where
  requestUri : String
  passed : List String
  left : List String
  deriving DecidableEq, Repr

namespace PathCursor

def start (requestUri : String) : PathCursor := ⟨requestUri, [], Path.segments requestUri⟩

/-- The path that has been routed. -/
def current (cursor : PathCursor) : String := Path.render cursor.passed

def pathLeft (cursor : PathCursor) : String := Path.render cursor.left

def isExhausted (cursor : PathCursor) : Bool := cursor.left.isEmpty

def peek (cursor : PathCursor) : Option String := cursor.left.head?

def shift (cursor : PathCursor) : Option String × PathCursor :=
  match cursor.left with
  | [] => (none, cursor)
  | s :: left => (some s, { cursor with passed := cursor.passed ++ [s], left })

end PathCursor

end WebResource
