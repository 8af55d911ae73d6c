import WebResource.Codec.Basic
import WebResource.Media

namespace WebResource

/-!
# Negotiation

Codecs are registered by media type. The codec of a message is looked up first among those that a
resource has registered itself, then among the built-in ones, and is JSON where nothing is found.
-/

/-- Codecs by canonical media type. -/
abbrev CodecTable := List (String × Codec)

namespace CodecTable

def find (r : CodecTable) (key : String) : Option Codec := (r.find? (·.1 == key)).map (·.2)

/-- Puts a codec under a key; the flag tells whether the key was taken. -/
def put (key : String) (c : Codec) : CodecTable → Bool × CodecTable
  | [] => (false, [(key, c)])
  | (k, c') :: r =>
    if k = key then (true, (k, c) :: r)
    else
      let (taken, r) := put key c r
      (taken, (k, c') :: r)

structure Duplicate where
  mediaType : String
  deriving DecidableEq, Repr

namespace Duplicate

def message (d : Duplicate) : String := s!"Codec for {d.mediaType} already registered"

end Duplicate

/-- Registers a codec. The codec is in place even if the media type already had one, which is
reported. -/
def register (mediaType : String) (c : Codec) (r : CodecTable) :
    Option Duplicate × CodecTable :=
  let key := Media.canonical mediaType
  let (taken, r) := put key c r
  (if taken then some ⟨key⟩ else none, r)

def get (r : CodecTable) (mediaType : String) : Option Codec :=
  match r.find mediaType with
  | some c => some c
  | none => r.find (Media.canonical mediaType)

def builtin : CodecTable :=
  [(Media.json, .json), (Media.problemJson, .json), (Media.ndjson, .jsonLines),
    (Media.streamJson, .jsonLines), (Media.jsonStream, .jsonLines), (Media.form, .form)]

end CodecTable

/-- A media type and the codec that was chosen for it. -/
structure MediaCodec where
  mediaType : String
  codec : Codec

namespace MediaCodec

def json : MediaCodec := ⟨Media.json, .json⟩

def lookup (mediaType : String) (own : CodecTable) : Option MediaCodec :=
  let mediaType := Media.canonical mediaType
  match own.get mediaType with
  | some c => some ⟨mediaType, c⟩
  | none => (CodecTable.builtin.get mediaType).map (⟨mediaType, ·⟩)

def lookupOrJson (mediaType : String) (own : CodecTable) : MediaCodec :=
  (lookup mediaType own).getD json

def forRequest (hs : Headers) (own : CodecTable) : MediaCodec :=
  match Media.contentType hs with
  | some mediaType => lookupOrJson mediaType own
  | none => json

/-- The codec for a response: the first accepted media type that has one, else that of the
request. -/
def forResponse (hs : Headers) (own : CodecTable) (request : MediaCodec) : MediaCodec :=
  ((Media.acceptCandidates hs).findSome? (lookup · own)).getD request

def forResponseTo (hs : Headers) (own : CodecTable) : MediaCodec :=
  forResponse hs own (forRequest hs own)

end MediaCodec

end WebResource
