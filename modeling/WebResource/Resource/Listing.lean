import WebResource.Codec.Lists
import WebResource.Log
import WebResource.Mapping
import WebResource.Message.Basic
import WebResource.Repository.Basic

namespace WebResource.Resource.Listing

/-!
# Lists of entities

The frames of a list: one for each entity and one that closes the list. Up to the first entity
nothing has been sent, so a failure there is an error of the request. A later failure closes the
list, so what has been sent is a whole list all the same.
-/

variable {E : Type}

def encodeEntity (m : Mapping E) (c : Context) (encoder : ListEncoder) (e : E) :
    Mapped (Bytes × ListEncoder) :=
  (m.toDocument c e).bind fun document =>
    match encoder.encode document with
    | .ok r => .ok r
    | .error x => .refused x.message

def closing (encoder : ListEncoder) (logs : List LogRecord) : List Frame := [⟨encoder.close.1, logs⟩]

def frames (m : Mapping E) (c : Context) (encoder : ListEncoder) : List (Fetched E) → List Frame
  | [] => closing encoder []
  | .error e :: _ =>
    closing encoder [.warn s!"Aborting list after failing to fetch entity: {e.message}"]
  | .panic p :: _ =>
    closing encoder [.error s!"Aborting list after panic while fetching entity: {p.toError.message}"]
  | .entity e :: items =>
    match encodeEntity m c encoder e with
    | .ok (bs, encoder) => ⟨bs, []⟩ :: frames m c encoder items
    | .refused why => closing encoder [.warn s!"Aborting list after failing to encode entity: {why}"]
    | .panicked p =>
      closing encoder [.error s!"Aborting list after panic while encoding entity: {p.toError.message}"]

/-- How a list starts. -/
inductive Opening where
  /-- There are no entities; the list is closed at once. -/
  | empty (body : Bytes)
  | failed (logs : List LogRecord) (e : ApiError)
  | panicked (p : Payload)
  | opened (frames : List Frame)

def start (m : Mapping E) (c : Context) (format : ListFormat) : List (Fetched E) → Opening
  | [] => .empty (ListEncoder.start format).close.1
  | .error e :: _ =>
    .failed [.error s!"Cannot fetch first entity: {e.message}"] ⟨.internalServerError, e.message⟩
  | .panic p :: _ => .panicked p
  | .entity e :: items =>
    match encodeEntity m c (.start format) e with
    | .ok (bs, encoder) => .opened (⟨bs, []⟩ :: frames m c encoder items)
    | .refused why => .failed [] ⟨.internalServerError, why⟩
    | .panicked p => .panicked p

end WebResource.Resource.Listing
