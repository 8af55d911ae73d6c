import WebResource.Proofs.Codec.Documents
import WebResource.Proofs.Text.Integer

namespace WebResource.ProblemDetails

/-!
# Errors are taken back from problem documents

The document of an error describes the error, in JSON and as a form.
-/

open Document (optionalField)

variable {p : ProblemDetails} {s : String} {fs : Json.Fields}

/-! ## Texts that are left out where they are empty -/

theorem unlessEmpty_cases (s : String) :
    (unlessEmpty s = none ∧ s = "") ∨ unlessEmpty s = some (.str s) := by
  rw [unlessEmpty]
  by_cases h : s = ""
  · exact Or.inl ⟨if_pos h, h⟩
  · exact Or.inr (if_neg h)

theorem firstFault_optionalField {faults : List (String × (Json → Option TypeError))} {k : String}
    {f : Field String} (hfind : faults.find? (·.1 == k) = some f.entry) (hf : f.scalar = .text) :
    firstFault faults (optionalField k (unlessEmpty s) ++ fs) = firstFault faults fs := by
  rcases unlessEmpty_cases s with ⟨h, -⟩ | h
  · rw [h]
    rfl
  · have hread : f.scalar.read (.str s) = .ok s := by
      rw [hf]
      rfl
    rw [h]
    exact firstFault_of_ok hfind hread

theorem ofFields_unlessEmpty {f : Field String} (hf : f.scalar = .text) (habsent : f.absent = some "")
    (hfind : Json.findField f.name fs = unlessEmpty s) : f.ofFields fs = .ok s := by
  rcases unlessEmpty_cases s with ⟨h, rfl⟩ | h
  · exact Field.ofFields_of_none (hfind.trans h) habsent
  · refine Field.ofFields_of_some (hfind.trans h) ?_
    rw [hf]
    rfl

/-! ## JSON -/

/-- The fields in the order of their names. -/
def fields (p : ProblemDetails) : Json.Fields :=
  optionalField "detail" (unlessEmpty p.detail) ++ (optionalField "instance" (unlessEmpty p.instanceUri) ++
    [("status", .int p.status), ("title", .str p.title), ("type", .str p.type.render)])

theorem toJson_eq (p : ProblemDetails) : Document.toJson p = .obj p.fields := by
  change Json.ofFields _ = _
  rw [fields]
  cases unlessEmpty p.detail <;> cases unlessEmpty p.instanceUri <;> rfl

theorem pairwise_fields (p : ProblemDetails) : p.fields.Pairwise fun f g => f.1 < g.1 := by
  apply List.pairwise_map.mp
  have hnames : ["detail", "instance", "status", "title", "type"].Pairwise (· < ·) := by decide
  refine List.Pairwise.sublist ?_ hnames
  rw [fields]
  cases unlessEmpty p.detail <;> cases unlessEmpty p.instanceUri <;> simp [optionalField]

/-- A problem that can be read back: its type is one, and its status has 16 bits. -/
structure Fits (p : ProblemDetails) : Prop where
  type : ProblemType.parse p.type.render = p.type
  status : p.status ≤ 65535

theorem findField_detail (p : ProblemDetails) :
    Json.findField "detail" p.fields = unlessEmpty p.detail := by
  rw [fields]
  cases unlessEmpty p.detail <;> cases unlessEmpty p.instanceUri <;> rfl

theorem findField_instance (p : ProblemDetails) :
    Json.findField "instance" p.fields = unlessEmpty p.instanceUri := by
  rw [fields]
  cases unlessEmpty p.detail <;> cases unlessEmpty p.instanceUri <;> rfl

theorem findField_required (p : ProblemDetails) {k : String} (hdetail : k ≠ "detail")
    (hinstance : k ≠ "instance") : Json.findField k p.fields = Json.findField k
      [("status", .int p.status), ("title", .str p.title), ("type", .str p.type.render)] := by
  rw [fields]
  cases unlessEmpty p.detail <;> cases unlessEmpty p.instanceUri <;>
    simp [optionalField, Json.findField, hdetail, hinstance]

theorem Fits.holds (h : p.Fits) : IntRange.u16.holds p.status = true := by
  have hmax : (IntRange.u16.max : Int) = 65535 := rfl
  have hdepth : (IntRange.u16.depth : Int) = 0 := rfl
  have hstatus := h.status
  rw [IntRange.holds, Bool.and_eq_true, decide_eq_true_eq, decide_eq_true_eq, hdepth, hmax]
  omega

theorem read_fields (h : p.Fits) : ProblemDetails.read (.obj p.fields) = .ok p := by
  have hstatus : statusField.scalar.read (.int p.status) = .ok p.status :=
    Scalar.read_integer h.holds "u16"
  have htitle : titleField.scalar.read (.str p.title) = .ok p.title := rfl
  have htype : typeField.scalar.read (.str p.type.render) = .ok p.type := by
    change Except.ok (ProblemType.parse p.type.render) = _
    rw [h.type]
  apply readRecord_of_fields
  · rw [fields, firstFault_optionalField (f := detailField) rfl rfl,
      firstFault_optionalField (f := instanceField) rfl rfl]
    exact (firstFault_of_ok rfl hstatus).trans
      ((firstFault_of_ok rfl htitle).trans (firstFault_of_ok rfl htype))
  · intro expected
    simp only [Source.take]
    rw [Field.ofFields_of_some (findField_required p (by decide) (by decide)) htype,
      Field.ofFields_of_some (findField_required p (by decide) (by decide)) htitle,
      Field.ofFields_of_some (findField_required p (by decide) (by decide)) hstatus,
      ofFields_unlessEmpty rfl rfl (findField_detail p),
      ofFields_unlessEmpty rfl rfl (findField_instance p)]
    rfl

theorem ofJson_toJson (h : p.Fits) :
    (Document.ofJson (Document.toJson p) : Except TypeError ProblemDetails) = .ok p := by
  rw [toJson_eq]
  exact Document.ofJson_of_read (read_fields h)

theorem readable_toJson (h : p.Fits) : (Document.toJson p).Readable := by
  have hstatus : Json.Integral (.int p.status) := by
    have hstatus := h.status
    rw [Json.Integral, Json.minInt, Json.maxNat]
    omega
  have hrequired : Json.IntegralFields
      [("status", .int p.status), ("title", .str p.title), ("type", .str p.type.render)] :=
    ⟨hstatus, trivial, trivial, trivial⟩
  rw [toJson_eq]
  refine ⟨⟨pairwise_fields p, ?_⟩, ?_⟩
  · rw [fields]
    rcases unlessEmpty_cases p.detail with ⟨hd, -⟩ | hd <;>
      rcases unlessEmpty_cases p.instanceUri with ⟨hi, -⟩ | hi <;> rw [hd, hi]
    · exact hrequired
    · exact ⟨trivial, hrequired⟩
    · exact ⟨trivial, hrequired⟩
    · exact ⟨trivial, trivial, hrequired⟩
  · have hdepth : Json.depth (.obj p.fields) = 1 := by
      rw [fields]
      rcases unlessEmpty_cases p.detail with ⟨hd, -⟩ | hd <;>
        rcases unlessEmpty_cases p.instanceUri with ⟨hi, -⟩ | hi <;> rw [hd, hi] <;> rfl
    rw [hdepth]
    decide

/-! ## Forms -/

def optionalText (name s : String) : List (String × String) := if s = "" then [] else [(name, s)]

def texts (p : ProblemDetails) : List (String × String) :=
  optionalText "detail" p.detail ++ (optionalText "instance" p.instanceUri ++
    [("status", String.ofList (Json.intChars p.status)), ("title", p.title), ("type", p.type.render)])

theorem ofTexts_optionalText (name s : String) (ps : List (String × String)) :
    Document.ofTexts (optionalText name s ++ ps) =
      optionalField name (unlessEmpty s) ++ Document.ofTexts ps := by
  rw [optionalText, unlessEmpty]
  split <;> rfl

theorem formPairs_optionalField {ps : List (String × String)} (name s : String)
    (h : Codec.formPairs fs = .ok ps) :
    Codec.formPairs (optionalField name (unlessEmpty s) ++ fs) = .ok (optionalText name s ++ ps) := by
  rw [optionalText, unlessEmpty]
  split
  · exact h
  · change (Codec.formPairs fs).map _ = _
    rw [h]
    rfl

theorem formPairs_fields (p : ProblemDetails) : Codec.formPairs p.fields = .ok p.texts :=
  formPairs_optionalField _ _ (formPairs_optionalField _ _ rfl)

theorem read_texts (p : ProblemDetails) :
    ∃ x, ProblemDetails.read (.obj (Document.ofTexts p.texts)) = .error x := by
  have hfault : firstFault [typeField.entry, titleField.entry, statusField.entry, detailField.entry,
      instanceField.entry] (Document.ofTexts p.texts) =
        some (.invalidType (.str (String.ofList (Json.intChars p.status))) "u16") := by
    rw [texts, ofTexts_optionalText, ofTexts_optionalText,
      firstFault_optionalField (f := detailField) rfl rfl,
      firstFault_optionalField (f := instanceField) rfl rfl]
    exact firstFault_of_error (f := statusField) rfl rfl
  exact ⟨_, readRecord_of_fault hfault⟩

theorem findText_required (p : ProblemDetails) {k : String} (hdetail : k ≠ "detail")
    (hinstance : k ≠ "instance") : Field.findText k p.texts = Field.findText k
      [("status", String.ofList (Json.intChars p.status)), ("title", p.title),
        ("type", p.type.render)] := by
  rw [texts, optionalText, optionalText]
  split <;> split <;> simp [Field.findText, hdetail.symm, hinstance.symm]

theorem ofForm_optionalText {f : Field String} {ps : List (String × String)} (hf : f.scalar = .text)
    (habsent : f.absent = some "")
    (hfind : Field.findText f.name ps = if s = "" then none else some s) : f.ofForm ps = some s := by
  split at hfind
  · next hempty =>
      rw [Field.ofForm_of_none hfind, habsent, hempty]
  · refine Field.ofForm_of_some hfind ?_
    rw [hf]
    rfl

theorem findText_detail (p : ProblemDetails) :
    Field.findText "detail" p.texts = if p.detail = "" then none else some p.detail := by
  rw [texts, optionalText, optionalText]
  split <;> split <;> rfl

theorem findText_instance (p : ProblemDetails) :
    Field.findText "instance" p.texts =
      if p.instanceUri = "" then none else some p.instanceUri := by
  rw [texts, optionalText, optionalText]
  split <;> split <;> rfl

theorem readForm_texts (h : p.Fits) : ProblemDetails.readForm p.texts = some p := by
  have hstatus : statusField.scalar.readText (String.ofList (Json.intChars p.status)) =
      some (p.status : Int) := by
    change (IntRange.u16.read _).toOption = _
    rw [IntRange.read_intChars h.holds]
    rfl
  have htype : typeField.scalar.readText p.type.render = some p.type := by
    change some (ProblemType.parse p.type.render) = _
    rw [h.type]
  have htitle : titleField.scalar.readText p.title = some p.title := rfl
  rw [readForm,
    Field.ofForm_of_some ((findText_required p (by decide) (by decide)).trans rfl) htype,
    Field.ofForm_of_some ((findText_required p (by decide) (by decide)).trans rfl) htitle,
    Field.ofForm_of_some ((findText_required p (by decide) (by decide)).trans rfl) hstatus,
    ofForm_optionalText rfl rfl (findText_detail p),
    ofForm_optionalText rfl rfl (findText_instance p)]
  rfl

theorem ofJson_texts (h : p.Fits) :
    (Document.ofJson (.obj (Document.ofTexts p.texts)) : Except TypeError ProblemDetails) = .ok p := by
  obtain ⟨x, hx⟩ := read_texts p
  exact Document.ofJson_ofTexts hx (readForm_texts h)

theorem carries (h : p.Fits) {mediaType : String} {c : Codec} (hknown : Known mediaType c) :
    c.Carries p :=
  Codec.carries_of_known hknown ⟨readable_toJson h, ofJson_toJson h⟩
    (Codec.form_carries (toJson_eq p) (formPairs_fields p) (pairwise_fields p) (ofJson_texts h))

end WebResource.ProblemDetails

namespace WebResource.ApiError

theorem fits_toProblem (e : ApiError) (instanceUri : String) : (e.toProblem instanceUri).Fits := by
  have htype (k : ErrorKind) :
      ProblemType.parse (ProblemType.render ⟨none, k.code⟩) = ⟨none, k.code⟩ := by
    cases k <;> decide
  have hstatus (k : ErrorKind) : k.status ≤ 65535 := by cases k <;> decide
  exact ⟨htype e.kind, hstatus e.kind⟩

theorem toError_toProblem (e : ApiError) (instanceUri : String) :
    (e.toProblem instanceUri).toError = some e := by
  change (ErrorKind.ofCode e.kind.code).map _ = _
  rw [ErrorKind.ofCode_code]
  rfl

theorem status_render {S : Type} (e : ApiError) (n : MediaCodec) (instanceUri : String) :
    ((e.render n instanceUri).2 : Response S).status = e.kind.status := by
  have hvalid (k : ErrorKind) : Status.isValid k.status = true := by cases k <;> rfl
  rw [render]
  cases hbody : n.codec.marshal (Document.toJson (e.toProblem instanceUri)) with
  | ok body => rfl
  | error x =>
      simp only [ProblemDetails.response, Response.ofBytes]
      exact if_pos (hvalid e.kind)

/-- The error that is rendered for a caller can be taken back from the body. -/
theorem render_eq {S : Type} {mediaType : String} {codec : Codec} (h : Known mediaType codec)
    (e : ApiError) (instanceUri : String) :
    ∃ body j, (e.render ⟨mediaType, codec⟩ instanceUri).2 =
        (.ofBytes e.kind.status (problemMedia mediaType) body : Response S) ∧
      codec.unmarshal body = .ok j ∧ Document.ofJson j = .ok (e.toProblem instanceUri) := by
  obtain ⟨body, j, hbody, hj, hproblem⟩ :=
    ProblemDetails.carries (fits_toProblem e instanceUri) h
  refine ⟨body, j, ?_, hj, hproblem⟩
  simp only [render, hbody]

end WebResource.ApiError
