import WebResource.Message.Basic
import WebResource.Text.Integer

namespace WebResource.Resource

/-!
# Bodies of limited size

A body that declares more bytes than the limit is refused before it is read; any other is read until
it ends, fails or exceeds the limit.
-/

def tooLarge (limit : Nat) : ApiError := ⟨.requestEntityTooLarge, s!"Body exceeds {limit} bytes"⟩

/-- The length that the headers declare, if it is a number of 64 bits. -/
def declaredLength (hs : Headers) : Option Nat :=
  (hs.firstText? "content-length").bind fun text => (IntRange.u64.read text).toOption.map Int.toNat

def readChunks (limit : Nat) (read : Bytes) : List (Except String Bytes) → Except ApiError Bytes
  | [] => .ok read
  | .error e :: _ => .error ⟨.invalidRequestBody, s!"Cannot read body: {e}"⟩
  | .ok chunk :: chunks =>
    if limit < read.length + chunk.length then .error (tooLarge limit)
    else readChunks limit (read ++ chunk) chunks

def readBody (limit : Nat) (request : Request) : Except ApiError Bytes :=
  if (declaredLength request.headers).any (limit < ·) then .error (tooLarge limit)
  else readChunks limit [] request.chunks

def readDocument (limit : Nat) (request : Request) (n : MediaCodec) : Except ApiError Json :=
  match readBody limit request with
  | .error e => .error e
  | .ok body =>
    match n.codec.unmarshal body with
    | .ok j => .ok j
    | .error e => .error ⟨.invalidRequestBody, e.message⟩

end WebResource.Resource
