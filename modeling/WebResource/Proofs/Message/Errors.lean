import WebResource.Proofs.Message.Response
import WebResource.Proofs.Problem

namespace WebResource

/-!
# Errors over the wire

An error is taken back from the response that was rendered for it, in whatever built-in media type that
is, and even if a base URL has been put in front of its code on the way.
-/

/-! ## Types of problems -/

namespace ProblemType

/-- The type as it is read back from its text. -/
def trimmed (t : ProblemType) : ProblemType := ⟨t.baseUrl.map (Text.dropEnd '/'), t.id⟩

theorem render_trimmed (t : ProblemType) : t.trimmed.render = t.render := by
  obtain ⟨_ | base, id⟩ := t
  · rfl
  · simp only [trimmed, render, Option.map_some, Text.dropEnd_dropEnd]

theorem parse_render {t : ProblemType} (h : '/' ∉ t.id.toList) : parse t.render = t.trimmed := by
  obtain ⟨_ | base, id⟩ := t
  · have hcut : Text.cutLast '/' id.toList = none := by
      rw [Text.cutLast, Text.cut_eq_none_iff.mpr (fun hmem => h (List.mem_reverse.mp hmem))]
      rfl
    simp only [render, parse, hcut]
    rfl
  · have htext : (render ⟨some base, id⟩).toList = (Text.dropEnd '/' base).toList ++ '/' :: id.toList := by
      simp [render, String.toList_append]
    rw [parse, htext, Text.cutLast_append_cons h]
    simp only [String.ofList_toList]
    rfl

end ProblemType

/-! ## Problem documents under another type -/

namespace ProblemDetails

variable {p : ProblemDetails}

theorem pairwise_texts (p : ProblemDetails) : p.texts.Pairwise fun f g => f.1 < g.1 := by
  apply List.pairwise_map.mp
  rw [Codec.names_formPairs (formPairs_fields p)]
  exact List.pairwise_map.mpr (pairwise_fields p)

/-- The type is the last of the fields. -/
theorem insertField_type_fields (p : ProblemDetails) (t : ProblemType) :
    Json.insertField "type" (.str t.render) p.fields = fields { p with type := t } := by
  have hsorted := pairwise_fields p
  rw [fields, ← List.append_assoc, List.append_cons, List.append_cons] at hsorted ⊢
  rw [Json.insertField_last hsorted]
  simp [fields]

theorem insertField_type_texts (p : ProblemDetails) (t : ProblemType) :
    Json.insertField "type" (.str t.render) (Document.ofTexts p.texts) =
      Document.ofTexts (texts { p with type := t }) := by
  have hsorted : (Document.ofTexts p.texts).Pairwise fun f g => f.1 < g.1 :=
    List.pairwise_map.mpr (pairwise_texts p)
  rw [texts, ← List.append_assoc, List.append_cons, List.append_cons, Document.ofTexts,
    List.map_append] at hsorted ⊢
  rw [List.map_singleton, Json.insertField_last hsorted]
  simp [texts, Document.ofTexts]

/-- A document that a codec carries as it is, and that is read as a problem. -/
structure Conveyed (c : Codec) (fs : Json.Fields) (p : ProblemDetails) : Prop where
  carried : ∃ body, c.marshal (.obj fs) = .ok body ∧ c.unmarshal body = .ok (.obj fs)
  read : Document.ofJson (.obj fs) = .ok p

theorem Fits.conveyed_fields (h : p.Fits) : Conveyed .json p.fields p := by
  have hreadable := readable_toJson h
  have hread := ofJson_toJson h
  rw [toJson_eq] at hreadable hread
  exact ⟨⟨_, rfl, Codec.readJson_render hreadable⟩, hread⟩

theorem Fits.conveyed_texts (h : p.Fits) : Conveyed .form (Document.ofTexts p.texts) p :=
  ⟨⟨_, Codec.formMarshal_ofTexts p.texts, Codec.formUnmarshal_encode (pairwise_texts p)⟩, ofJson_texts h⟩

/-- What arrives of a problem document can be sent on, also under another type. -/
theorem Fits.arrives (h : p.Fits) {mediaType : String} {c : Codec} (hknown : Known mediaType c) :
    ∃ body fs, c.marshal (Document.toJson p) = .ok body ∧ c.unmarshal body = .ok (.obj fs) ∧
      Conveyed c fs p ∧
      ∀ t : ProblemType, ProblemType.parse t.render = t →
        Conveyed c (Json.insertField "type" (.str t.render) fs) { p with type := t } := by
  have hretyped (t : ProblemType) (ht : ProblemType.parse t.render = t) :
      Fits { p with type := t } := ⟨ht, h.status⟩
  rw [toJson_eq]
  rcases Codec.known_cases hknown with ⟨hmarshal, hunmarshal⟩ | rfl
  · have hconveyed (fs : Json.Fields) (q : ProblemDetails) (hq : Conveyed .json fs q) :
        Conveyed c fs q :=
      ⟨by rw [hmarshal, hunmarshal]; exact hq.carried, hq.read⟩
    obtain ⟨body, hbody, hfs⟩ := (hconveyed _ _ h.conveyed_fields).carried
    refine ⟨body, p.fields, hbody, hfs, hconveyed _ _ h.conveyed_fields, fun t ht => ?_⟩
    rw [insertField_type_fields]
    exact hconveyed _ _ (hretyped t ht).conveyed_fields
  · refine ⟨Form.encode p.texts, Document.ofTexts p.texts, ?_,
      Codec.formUnmarshal_encode (pairwise_texts p), h.conveyed_texts, fun t ht => ?_⟩
    · change Codec.formMarshal (.obj p.fields) = _
      rw [Codec.formMarshal, formPairs_fields]
      rfl
    · rw [insertField_type_texts]
      exact (hretyped t ht).conveyed_texts

/-- A document describes an error of a request: the error is taken back from it, and it names the
instance and the status. -/
def Describes (j : Json) (e : ApiError) (instanceUri : String) (status : Nat) : Prop :=
  ∃ p : ProblemDetails, Document.ofJson j = .ok p ∧ p.toError = some e ∧
    p.instanceUri = instanceUri ∧ p.status = status

end ProblemDetails

/-! ## Errors -/

namespace ApiError

open ProblemDetails (Describes)

variable {S : Type}

theorem slash_notMem_code (k : ErrorKind) : '/' ∉ k.code.toList := by
  cases k <;> decide

/-- The document of an error describes it under every type with its code. -/
theorem describes_of_conveyed {e : ApiError} {instanceUri : String} {t : ProblemType} {c : Codec}
    {fs : Json.Fields} (ht : t.id = e.kind.code)
    (h : ProblemDetails.Conveyed c fs { e.toProblem instanceUri with type := t }) :
    Describes (.obj fs) e instanceUri e.kind.status := by
  refine ⟨_, h.read, ?_, rfl, rfl⟩
  change (ErrorKind.ofCode t.id).map _ = _
  rw [ht, ErrorKind.ofCode_code]
  rfl

/-- The response to an error describes the error to one who reads it by its own media type, whatever
base URL is put in front of the code; and the document can be sent on under that type. -/
theorem describes_render (e : ApiError) (instanceUri : String) (hs : Headers) :
    let response : Response S := (e.render (.forResponseTo hs []) instanceUri).2
    ∃ (mediaType : String) (n : MediaCodec) (fs : Json.Fields),
      Media.contentType response.headers = some mediaType ∧
      MediaCodec.lookup mediaType [] = some n ∧
      n.codec.unmarshal response.bytes = .ok (.obj fs) ∧
      Describes (.obj fs) e instanceUri response.status ∧
      ∀ base : String,
        let text := ProblemType.render ⟨some base, e.kind.code⟩
        let retyped := Json.obj (Json.insertField "type" (.str text) fs)
        Describes retyped e instanceUri response.status ∧
          ∃ body, n.codec.marshal retyped = .ok body ∧ n.codec.unmarshal body = .ok retyped := by
  have hknown : Known _ _ := MediaCodec.isKnown_forResponseTo hs
  obtain ⟨body, fs, hbody, hfs, hconveyed, hretyped⟩ := (fits_toProblem e instanceUri).arrives hknown
  have hresponse : ((e.render (.forResponseTo hs []) instanceUri).2 : Response S) =
      .ofBytes e.kind.status (problemMedia (MediaCodec.forResponseTo hs []).mediaType) body := by
    simp only [render, hbody]
  refine ⟨_, ⟨_, (MediaCodec.forResponseTo hs []).codec⟩, fs, ?_, hknown.problem.lookup_eq, ?_, ?_, ?_⟩
  · rw [hresponse]
    exact hknown.problem.contentType_eq []
  · rw [hresponse, Response.bytes_ofBytes]
    exact hfs
  · rw [hresponse]
    exact describes_of_conveyed rfl hconveyed
  · intro base
    let t : ProblemType := ⟨some base, e.kind.code⟩
    have hparse : ProblemType.parse t.trimmed.render = t.trimmed := by
      rw [t.render_trimmed, ProblemType.parse_render (slash_notMem_code e.kind)]
    have hbased := hretyped t.trimmed hparse
    rw [t.render_trimmed] at hbased
    rw [hresponse]
    exact ⟨describes_of_conveyed rfl hbased, hbased.carried⟩

end ApiError

end WebResource
