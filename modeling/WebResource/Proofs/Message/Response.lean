import WebResource.Message.Basic
import WebResource.Proofs.Text.Utf8

namespace WebResource.Response

/-!
# What is seen of a response
-/

variable {S : Type} {status status' : Nat} {mediaType mediaType' : String} {body body' : Bytes}

theorem flatten_whole (bs : Bytes) : ((whole bs).map Frame.data).flatten = bs := by
  cases bs <;> simp [whole]

@[simp] theorem bytes_ofBytes : (ofBytes status mediaType body : Response S).bytes = body :=
  (List.flatMap_def ..).trans (flatten_whole body)

@[simp] theorem contentType_ofBytes :
    (ofBytes status mediaType body : Response S).contentType = some (Utf8.encode mediaType) := by
  simp [ofBytes, contentType, Headers.first?, Headers.matchesName]

/-- The status, the media type and the body of a response. -/
def reply (r : Response S) : Nat × Option Bytes × Bytes := (r.status, r.contentType, r.bytes)

theorem reply_ofBytes_eq_iff : (ofBytes status mediaType body : Response S).reply =
      (ofBytes status' mediaType' body' : Response S).reply ↔
    status = status' ∧ mediaType = mediaType' ∧ body = body' := by
  have hencode : Utf8.encode mediaType = Utf8.encode mediaType' ↔ mediaType = mediaType' := by
    refine ⟨fun h => ?_, congrArg _⟩
    rw [← Option.some_inj, ← Utf8.decode?_encode mediaType, h, Utf8.decode?_encode]
  simp only [reply, contentType_ofBytes, bytes_ofBytes, Prod.mk.injEq, Option.some_inj, hencode]
  rfl

end WebResource.Response
