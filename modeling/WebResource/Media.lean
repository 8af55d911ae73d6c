import WebResource.Message.Headers
import WebResource.Text.Blank
import WebResource.Text.Split

namespace WebResource

/-!
# Media types

The media types that the library knows, their canonical form, and how they are read from the
`Content-Type` and `Accept` headers.
-/

namespace Media

def json : String := "application/json"
def problemJson : String := "application/problem+json"
def ndjson : String := "application/x-ndjson"
def streamJson : String := "application/stream+json"
def jsonStream : String := "application/json-stream"
def form : String := "application/x-www-form-urlencoded"

def lowerChar (c : Char) : Char := if 'A' ≤ c ∧ c ≤ 'Z' then Char.ofNat (c.toNat + 32) else c

/-- Lower case for the letters `A` to `Z` only. -/
def lower (s : String) : String := String.ofList (s.toList.map lowerChar)

/-- A media type without its parameters, in lower case. -/
def canonical (value : String) : String := lower (Text.trim (Text.before ';' value))

def contentType (hs : Headers) : Option String :=
  match hs.firstText? "content-type" with
  | some value => if canonical value = "" then none else some (canonical value)
  | none => none

/-- The media types of one `Accept` entry, which may be several separated by blanks. -/
def entryTypes (entry : String) : List String :=
  (Text.words (Text.before ';' (Text.trim entry))).map canonical

def acceptTypes (value : String) : List String := (Text.pieces ',' value).flatMap entryTypes

/-- The media types that a request accepts, in order. Parameters are ignored. -/
def acceptCandidates (hs : Headers) : List String :=
  ((hs.all "accept").filterMap Headers.text?).flatMap acceptTypes

end Media

end WebResource
