import WebResource.Codec.Basic
import WebResource.Proofs.Document
import WebResource.Proofs.Json.RoundTrip
import WebResource.Proofs.Negotiation
import WebResource.Proofs.Text.Form

namespace WebResource

/-!
# Documents through a codec

What a codec writes, it reads back: as the same document, or with forms as a document of texts.
-/

/-! ## Objects with their fields in order -/

namespace Json

theorem foldl_insertField {fs gs : Fields} (h : (fs ++ gs).Pairwise fun f g => f.1 < g.1) :
    gs.foldl (fun acc (k, v) => insertField k v acc) fs = fs ++ gs := by
  induction gs generalizing fs with
  | nil => exact (List.append_nil fs).symm
  | cons g gs ih =>
      obtain ⟨k, v⟩ := g
      have hlast : ∀ f ∈ fs, f.1 < k := fun f hf =>
        (List.pairwise_append.mp h).2.2 f hf (k, v) List.mem_cons_self
      have hnext : ((fs ++ [(k, v)]) ++ gs).Pairwise fun f g => f.1 < g.1 := by
        rw [List.append_assoc, List.singleton_append]
        exact h
      rw [List.foldl_cons]
      simp only [insertField_of_lt hlast]
      rw [ih hnext, List.append_assoc, List.singleton_append]

theorem ofFields_of_pairwise {fs : Fields} (h : fs.Pairwise fun f g => f.1 < g.1) :
    ofFields fs = .obj fs :=
  congrArg Json.obj (foldl_insertField h)

end Json

/-- A value that is read back from its document. -/
structure Document.Returns {E : Type} [Document E] (e : E) : Prop where
  readable : (Document.toJson e).Readable
  ofJson_toJson : Document.ofJson (Document.toJson e) = .ok e

namespace Codec

variable {E : Type} [Document E] {e : E} {fs : Json.Fields} {ps : List (String × String)}

/-- A codec that writes the document of `e`, and from whose bytes `e` is read back. -/
def Carries (c : Codec) (e : E) : Prop :=
  ∃ body j, c.marshal (Document.toJson e) = .ok body ∧ c.unmarshal body = .ok j ∧
    Document.ofJson j = .ok e

/-! ## JSON -/

theorem readJson_render {v : Json} (h : v.Readable) : readJson v.render = .ok v := by
  rw [readJson, Json.read_render h]

theorem json_carries (h : Document.Returns e) : json.Carries e :=
  ⟨_, _, rfl, readJson_render h.readable, h.ofJson_toJson⟩

/-! ## Forms -/

theorem names_formPairs (h : formPairs fs = .ok ps) : ps.map (·.1) = fs.map (·.1) := by
  induction fs generalizing ps with
  | nil =>
      cases h
      rfl
  | cons f fs ih =>
      obtain ⟨k, v⟩ := f
      rw [formPairs] at h
      cases ht : formScalar? v with
      | none =>
          rw [ht] at h
          cases h
      | some t =>
          simp only [ht] at h
          cases hps : formPairs fs with
          | error x =>
              rw [hps] at h
              cases h
          | ok ps' =>
              rw [hps] at h
              cases h
              exact congrArg (k :: ·) (ih hps)

theorem formUnmarshal_encode (h : ps.Pairwise fun p q => p.1 < q.1) :
    formUnmarshal (Form.encode ps) = .ok (.obj (Document.ofTexts ps)) := by
  have hsorted : (Document.ofTexts ps).Pairwise fun f g => f.1 < g.1 := List.pairwise_map.mpr h
  rw [formUnmarshal, Form.decode_encode]
  exact congrArg Except.ok (Json.ofFields_of_pairwise hsorted)

theorem form_carries (hfields : Document.toJson e = .obj fs) (hpairs : formPairs fs = .ok ps)
    (hsorted : fs.Pairwise fun f g => f.1 < g.1)
    (h : Document.ofJson (.obj (Document.ofTexts ps)) = .ok e) : form.Carries e := by
  have hnames : ps.Pairwise fun p q => p.1 < q.1 := by
    apply List.pairwise_map.mp
    rw [names_formPairs hpairs]
    exact List.pairwise_map.mpr hsorted
  refine ⟨Form.encode ps, _, ?_, formUnmarshal_encode hnames, h⟩
  change formMarshal _ = _
  rw [hfields, formMarshal, hpairs]
  rfl

theorem formPairs_ofTexts (ps : List (String × String)) : formPairs (Document.ofTexts ps) = .ok ps := by
  induction ps with
  | nil => rfl
  | cons p ps ih =>
      change (formPairs (Document.ofTexts ps)).map _ = _
      rw [ih]
      rfl

theorem formMarshal_ofTexts (ps : List (String × String)) :
    formMarshal (.obj (Document.ofTexts ps)) = .ok (Form.encode ps) := by
  rw [formMarshal, formPairs_ofTexts]
  rfl

/-! ## Built-in codecs -/

theorem known_cases {mediaType : String} {c : Codec} (h : Known mediaType c) :
    (c.marshal = json.marshal ∧ c.unmarshal = json.unmarshal) ∨ c = form := by
  cases h with
  | json => exact Or.inl ⟨rfl, rfl⟩
  | problemJson => exact Or.inl ⟨rfl, rfl⟩
  | ndjson => exact Or.inl ⟨rfl, rfl⟩
  | streamJson => exact Or.inl ⟨rfl, rfl⟩
  | jsonStream => exact Or.inl ⟨rfl, rfl⟩
  | form => exact Or.inr rfl

/-- A value that JSON and forms carry is carried in every media type. -/
theorem carries_of_known {mediaType : String} {c : Codec} (h : Known mediaType c)
    (he : Document.Returns e) (hform : form.Carries e) : c.Carries e := by
  rcases known_cases h with ⟨hmarshal, hunmarshal⟩ | rfl
  · rw [Carries, hmarshal, hunmarshal]
    exact json_carries he
  · exact hform

end Codec

end WebResource
