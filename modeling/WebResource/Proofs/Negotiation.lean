import WebResource.Message.Basic
import WebResource.Negotiation
import WebResource.Proofs.Media

namespace WebResource

/-!
# Both sides choose the same codec

A client that names one of these media types as the type of its requests and as the only one that it
accepts is understood by a server without codecs of its own, and understands what comes back.
-/

/-- A built-in media type and its codec. -/
inductive Known : String → Codec → Prop where
  | json : Known Media.json .json
  | problemJson : Known Media.problemJson .json
  | ndjson : Known Media.ndjson .jsonLines
  | streamJson : Known Media.streamJson .jsonLines
  | jsonStream : Known Media.jsonStream .jsonLines
  | form : Known Media.form .form

/-- A media type for requests and responses. -/
inductive Spoken : String → Codec → Prop where
  | json : Spoken Media.json .json
  | ndjson : Spoken Media.ndjson .jsonLines
  | streamJson : Spoken Media.streamJson .jsonLines
  | jsonStream : Spoken Media.jsonStream .jsonLines
  | form : Spoken Media.form .form

variable {mediaType : String} {codec : Codec}

namespace Known

theorem canonical_eq (h : Known mediaType codec) : Media.canonical mediaType = mediaType := by
  cases h <;> decide +kernel

theorem text?_encode (h : Known mediaType codec) :
    Headers.text? (Utf8.encode mediaType) = some mediaType := by
  cases h <;> decide +kernel

theorem lookup_eq (h : Known mediaType codec) :
    MediaCodec.lookup mediaType [] = some ⟨mediaType, codec⟩ := by
  have hget : CodecTable.builtin.get mediaType = some codec := by cases h <;> rfl
  have hnone : CodecTable.get [] mediaType = none := rfl
  simp only [MediaCodec.lookup, h.canonical_eq, hnone, hget, Option.map_some]

theorem lookupOrJson_eq (h : Known mediaType codec) :
    MediaCodec.lookupOrJson mediaType [] = ⟨mediaType, codec⟩ := by
  rw [MediaCodec.lookupOrJson, h.lookup_eq]
  rfl

theorem contentType_eq (h : Known mediaType codec) (hs : Headers) :
    Media.contentType (("content-type", Utf8.encode mediaType) :: hs) = some mediaType := by
  have hne : mediaType ≠ "" := by cases h <;> decide
  have hfirst : Headers.firstText? "content-type" (("content-type", Utf8.encode mediaType) :: hs) =
      some mediaType := by
    simp [Headers.firstText?, Headers.first?, Headers.matchesName, h.text?_encode]
  simp only [Media.contentType, hfirst, h.canonical_eq, if_neg hne]

/-- The media type of problem documents is a built-in one too. -/
theorem problem (h : Known mediaType codec) : Known (ApiError.problemMedia mediaType) codec := by
  cases h with
  | json => exact .problemJson
  | problemJson => exact .problemJson
  | ndjson => exact .ndjson
  | streamJson => exact .streamJson
  | jsonStream => exact .jsonStream
  | form => exact .form

theorem of_find (h : CodecTable.builtin.find mediaType = some codec) : Known mediaType codec := by
  obtain ⟨⟨key, c⟩, hfind, rfl⟩ := Option.map_eq_some_iff.mp h
  obtain rfl : key = mediaType := by simpa using List.find?_some hfind
  have hmem := List.mem_of_find?_eq_some hfind
  simp only [CodecTable.builtin, List.mem_cons, Prod.mk.injEq, List.not_mem_nil, or_false] at hmem
  rcases hmem with ⟨rfl, rfl⟩ | ⟨rfl, rfl⟩ | ⟨rfl, rfl⟩ | ⟨rfl, rfl⟩ | ⟨rfl, rfl⟩ | ⟨rfl, rfl⟩
  · exact .json
  · exact .problemJson
  · exact .ndjson
  · exact .streamJson
  · exact .jsonStream
  · exact .form

end Known

namespace MediaCodec

/-! ## What is negotiated without codecs of one's own -/

variable {n : MediaCodec}

/-- A built-in media type with its codec. -/
def IsKnown (n : MediaCodec) : Prop := Known n.mediaType n.codec

theorem isKnown_of_lookup (h : lookup mediaType [] = some n) : n.IsKnown := by
  have hown : CodecTable.get [] (Media.canonical mediaType) = none := rfl
  simp only [lookup, hown] at h
  obtain ⟨codec, hget, rfl⟩ := Option.map_eq_some_iff.mp h
  rw [CodecTable.get, Media.canonical_canonical] at hget
  cases hfind : CodecTable.builtin.find (Media.canonical mediaType) with
  | none => simp [hfind] at hget
  | some c =>
      simp only [hfind, Option.some.injEq] at hget
      exact .of_find (hfind.trans (congrArg some hget))

theorem isKnown_forRequest (hs : Headers) : (forRequest hs []).IsKnown := by
  rw [forRequest]
  split
  · next mediaType hmedia =>
      rw [lookupOrJson]
      cases hlookup : lookup mediaType [] with
      | none => exact .json
      | some n => exact isKnown_of_lookup hlookup
  · exact .json

theorem isKnown_forResponseTo (hs : Headers) : (forResponseTo hs []).IsKnown := by
  rw [forResponseTo, forResponse]
  cases hfound : (Media.acceptCandidates hs).findSome? (lookup · []) with
  | none => exact isKnown_forRequest hs
  | some n =>
      obtain ⟨mediaType, -, hlookup⟩ := List.exists_of_findSome?_eq_some hfound
      exact isKnown_of_lookup hlookup

/-! ## Codecs of one's own for other media types -/

variable {hs : Headers} {own : CodecTable}

/-- The headers name no media type that has a codec of one's own. -/
structure Foreign (own : CodecTable) (hs : Headers) : Prop where
  body : ∀ mediaType, Media.contentType hs = some mediaType → own.get (Media.canonical mediaType) = none
  accepted : ∀ mediaType ∈ Media.acceptCandidates hs, own.get (Media.canonical mediaType) = none

theorem lookup_of_get_eq_none (h : own.get (Media.canonical mediaType) = none) :
    lookup mediaType own = lookup mediaType [] := by
  have hnone : CodecTable.get [] (Media.canonical mediaType) = none := rfl
  simp only [lookup, h, hnone]

theorem Foreign.forRequest_eq (h : Foreign own hs) : forRequest hs own = forRequest hs [] := by
  unfold forRequest
  split
  · next mediaType hmedia =>
      rw [lookupOrJson, lookupOrJson, lookup_of_get_eq_none (h.body mediaType hmedia)]
  · rfl

theorem Foreign.forResponseTo_eq (h : Foreign own hs) :
    forResponseTo hs own = forResponseTo hs [] := by
  have hfind : (Media.acceptCandidates hs).findSome? (lookup · own) =
      (Media.acceptCandidates hs).findSome? (lookup · []) := by
    rw [← List.head?_filterMap, ← List.head?_filterMap]
    exact congrArg _ (List.filterMap_congr fun mediaType hmem =>
      lookup_of_get_eq_none (h.accepted mediaType hmem))
  rw [forResponseTo, forResponseTo, forResponse, forResponse, hfind, h.forRequest_eq]

end MediaCodec

namespace Spoken

/-- The headers of a request in a media type. -/
def requestHeaders (mediaType : String) : Headers :=
  [("content-type", Utf8.encode mediaType), ("accept", Utf8.encode mediaType)]

theorem known (h : Spoken mediaType codec) : Known mediaType codec := by
  cases h with
  | json => exact .json
  | ndjson => exact .ndjson
  | streamJson => exact .streamJson
  | jsonStream => exact .jsonStream
  | form => exact .form

theorem isSendable (h : Spoken mediaType codec) :
    Headers.isSendable (Utf8.encode mediaType) = true := by
  cases h <;> decide +kernel

theorem acceptCandidates_eq (h : Spoken mediaType codec) :
    Media.acceptCandidates (requestHeaders mediaType) = [mediaType] := by
  cases h <;> decide +kernel

theorem forRequest_eq (h : Spoken mediaType codec) :
    MediaCodec.forRequest (requestHeaders mediaType) [] = ⟨mediaType, codec⟩ := by
  rw [MediaCodec.forRequest, requestHeaders, h.known.contentType_eq]
  exact h.known.lookupOrJson_eq

theorem forResponse_eq (h : Spoken mediaType codec) (n : MediaCodec) :
    MediaCodec.forResponse (requestHeaders mediaType) [] n = ⟨mediaType, codec⟩ := by
  rw [MediaCodec.forResponse, h.acceptCandidates_eq, List.findSome?_cons, h.known.lookup_eq]
  rfl

end Spoken

end WebResource
