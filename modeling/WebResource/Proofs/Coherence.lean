import WebResource.Proofs.Media
import WebResource.Proofs.Negotiation
import WebResource.Sample.Codecs

namespace WebResource.MediaCodec

/-!
# What is advertised is what is spoken

A negotiated media type comes with the codec that is found for it, unless it is the JSON that stands in
where no codec is found: that one is the built-in one even where JSON has a codec of its own.
-/

variable {own : CodecTable} {hs : Headers} {mediaType : String} {n : MediaCodec}

/-- The codec is the one that is found for the media type. -/
def Coherent (own : CodecTable) (n : MediaCodec) : Prop := lookup n.mediaType own = some n

/-- The headers name a type for the body that has a codec. -/
def BodyTypeKnown (hs : Headers) (own : CodecTable) : Prop :=
  ∃ mediaType, Media.contentType hs = some mediaType ∧ (lookup mediaType own).isSome

/-- The headers accept a type that has a codec. -/
def AcceptedTypeKnown (hs : Headers) (own : CodecTable) : Prop :=
  ∃ mediaType ∈ Media.acceptCandidates hs, (lookup mediaType own).isSome

theorem lookup_canonical (mediaType : String) (own : CodecTable) :
    lookup (Media.canonical mediaType) own = lookup mediaType own := by
  simp only [lookup, Media.canonical_canonical]

theorem mediaType_of_lookup (h : lookup mediaType own = some n) :
    n.mediaType = Media.canonical mediaType := by
  rw [lookup] at h
  cases hown : own.get (Media.canonical mediaType) with
  | some c =>
      simp only [hown, Option.some.injEq] at h
      rw [← h]
  | none =>
      simp only [hown] at h
      obtain ⟨c, -, hc⟩ := Option.map_eq_some_iff.mp h
      rw [← hc]

/-- What is looked up is found again under its own name. -/
theorem coherent_of_lookup (h : lookup mediaType own = some n) : n.Coherent own := by
  rw [Coherent, mediaType_of_lookup h, lookup_canonical, h]

theorem coherent_json_iff :
    json.Coherent own ↔ own.get Media.json = none ∨ own.get Media.json = some .json := by
  have hcanonical : Media.canonical Media.json = Media.json := Known.json.canonical_eq
  have hbuiltin : CodecTable.builtin.get Media.json = some .json := rfl
  rw [Coherent, json, lookup, hcanonical]
  cases hown : own.get Media.json with
  | none => simp [hbuiltin]
  | some c => simp

theorem forRequest_of_unknown (h : ¬BodyTypeKnown hs own) : forRequest hs own = json := by
  rw [forRequest]
  split
  · next mediaType hmedia =>
      have hnone : lookup mediaType own = none :=
        Option.not_isSome_iff_eq_none.mp fun hsome => h ⟨mediaType, hmedia, hsome⟩
      rw [lookupOrJson, hnone]
      rfl
  · rfl

theorem coherent_forRequest_of_known (h : BodyTypeKnown hs own) : (forRequest hs own).Coherent own := by
  obtain ⟨mediaType, hmedia, hsome⟩ := h
  obtain ⟨n, hn⟩ := Option.isSome_iff_exists.mp hsome
  simp only [forRequest, hmedia, lookupOrJson, hn, Option.getD_some]
  exact coherent_of_lookup hn

theorem coherent_forRequest_iff :
    (forRequest hs own).Coherent own ↔ BodyTypeKnown hs own ∨ json.Coherent own := by
  by_cases h : BodyTypeKnown hs own
  · exact iff_of_true (coherent_forRequest_of_known h) (Or.inl h)
  · rw [forRequest_of_unknown h, or_iff_right h]

theorem forResponse_of_unknown (h : ¬AcceptedTypeKnown hs own) (request : MediaCodec) :
    forResponse hs own request = request := by
  have hnone : (Media.acceptCandidates hs).findSome? (lookup · own) = none := by
    rw [List.findSome?_eq_none_iff]
    intro mediaType hmem
    exact Option.not_isSome_iff_eq_none.mp fun hsome => h ⟨mediaType, hmem, hsome⟩
  rw [forResponse, hnone]
  rfl

theorem coherent_forResponse_of_known (h : AcceptedTypeKnown hs own) (request : MediaCodec) :
    (forResponse hs own request).Coherent own := by
  obtain ⟨mediaType, hmem, hsome⟩ := h
  obtain ⟨n, hn⟩ : ∃ n, (Media.acceptCandidates hs).findSome? (lookup · own) = some n :=
    Option.isSome_iff_exists.mp (List.findSome?_isSome_iff.mpr ⟨mediaType, hmem, hsome⟩)
  obtain ⟨found, -, hfound⟩ := List.exists_of_findSome?_eq_some hn
  rw [forResponse, hn]
  exact coherent_of_lookup hfound

theorem coherent_forResponse_iff (request : MediaCodec) :
    (forResponse hs own request).Coherent own ↔ AcceptedTypeKnown hs own ∨ request.Coherent own := by
  by_cases h : AcceptedTypeKnown hs own
  · exact iff_of_true (coherent_forResponse_of_known h request) (Or.inl h)
  · rw [forResponse_of_unknown h, or_iff_right h]

/-- The codecs of a request and of its response are those of their media types if the headers name types
with codecs. If they do not, and JSON stands in, they are so exactly where JSON has no codec of its own. -/
theorem negotiated_coherent_iff (hs : Headers) (own : CodecTable) :
    ((forRequest hs own).Coherent own ↔
        BodyTypeKnown hs own ∨ own.get Media.json = none ∨ own.get Media.json = some .json) ∧
      ((forResponse hs own (forRequest hs own)).Coherent own ↔
        AcceptedTypeKnown hs own ∨ BodyTypeKnown hs own ∨
          own.get Media.json = none ∨ own.get Media.json = some .json) := by
  rw [coherent_forResponse_iff, coherent_forRequest_iff, coherent_json_iff]
  exact ⟨Iff.rfl, Iff.rfl⟩

/-- A codec of one's own for JSON is not used for a request that does not name a type, although JSON is
what the response claims to be. -/
example : (forRequest [] [(Media.json, Sample.Codecs.constant "own")]).mediaType = Media.json ∧
    ((forRequest [] [(Media.json, Sample.Codecs.constant "own")]).codec.marshal .null).toOption =
      some (Utf8.encode "null") ∧
    ((Sample.Codecs.constant "own").marshal .null).toOption = some (Utf8.encode "own") := by
  decide +kernel

end WebResource.MediaCodec
