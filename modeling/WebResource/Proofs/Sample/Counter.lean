import WebResource.Id.Lens
import WebResource.Proofs.Codec.Documents
import WebResource.Proofs.Text.Integer
import WebResource.Sample.Entities

namespace WebResource.Sample.Counter

/-!
# Documents of counters

A counter whose numbers have 64 bits is read from its document and from its form.
-/

variable {e : Counter}

/-- A counter whose numbers have 64 bits. -/
structure Fits (e : Counter) : Prop where
  id : ∀ i, e.id = some i → IntRange.i64.holds i = true
  count : IntRange.i64.holds e.count = true

/-- The fields in the order of their names. -/
def fields (e : Counter) : Json.Fields :=
  [("count", .int e.count), ("enabled", .bool e.enabled)] ++
    Document.optionalField "id" (e.id.map .int) ++ [("name", .str e.name)]

theorem toJson_eq (e : Counter) : Document.toJson e = .obj e.fields := by
  obtain ⟨_ | i, name, count, enabled⟩ := e <;> rfl

/-! ## JSON -/

theorem read_number {i : Int} (h : IntRange.i64.holds i = true) : number.read (.int i) = .ok i :=
  Scalar.read_integer h "i64"

theorem read_fields (h : e.Fits) : Counter.read (.obj e.fields) = .ok e := by
  have hcount : countField.scalar.read (.int e.count) = .ok e.count := read_number h.count
  have henabled : enabledField.scalar.read (.bool e.enabled) = .ok e.enabled := rfl
  have hname : nameField.scalar.read (.str e.name) = .ok e.name := rfl
  have hid (i : Int) (hi : e.id = some i) : idField.scalar.read (.int i) = .ok (some i) := by
    change (number.read (.int i)).map some = _
    rw [read_number (h.id i hi)]
    rfl
  obtain ⟨id, name, count, enabled⟩ := e
  cases id with
  | none =>
      apply readRecord_of_fields
      · exact (firstFault_of_ok rfl hcount).trans
          ((firstFault_of_ok rfl henabled).trans (firstFault_of_ok rfl hname))
      · intro expected
        simp only [Source.take]
        rw [Field.ofFields_of_none rfl rfl, Field.ofFields_of_some rfl hname,
          Field.ofFields_of_some rfl hcount, Field.ofFields_of_some rfl henabled]
        rfl
  | some i =>
      apply readRecord_of_fields
      · exact (firstFault_of_ok rfl hcount).trans ((firstFault_of_ok rfl henabled).trans
          ((firstFault_of_ok rfl (hid i rfl)).trans (firstFault_of_ok rfl hname)))
      · intro expected
        simp only [Source.take]
        rw [Field.ofFields_of_some rfl (hid i rfl), Field.ofFields_of_some rfl hname,
          Field.ofFields_of_some rfl hcount, Field.ofFields_of_some rfl henabled]
        rfl

theorem ofJson_toJson (h : e.Fits) :
    (Document.ofJson (Document.toJson e) : Except TypeError Counter) = .ok e := by
  rw [toJson_eq]
  exact Document.ofJson_of_read (read_fields h)

theorem minInt_le_of_holds {i : Int} (h : IntRange.i64.holds i = true) :
    Json.minInt ≤ i ∧ i ≤ Json.maxNat := by
  have hdepth : (IntRange.i64.depth : Int) = 9223372036854775808 := rfl
  have hmax : (IntRange.i64.max : Int) = 9223372036854775807 := rfl
  rw [IntRange.holds, Bool.and_eq_true, decide_eq_true_eq, decide_eq_true_eq, hdepth, hmax] at h
  rw [Json.minInt, Json.maxNat]
  omega

theorem pairwise_fields (e : Counter) : e.fields.Pairwise fun f g => f.1 < g.1 := by
  obtain ⟨_ | i, name, count, enabled⟩ := e
  · have hnames : ["count", "enabled", "name"].Pairwise (· < ·) := by decide
    exact List.pairwise_map.mp hnames
  · have hnames : ["count", "enabled", "id", "name"].Pairwise (· < ·) := by decide
    exact List.pairwise_map.mp hnames

theorem readable_toJson (h : e.Fits) : (Document.toJson e).Readable := by
  rw [toJson_eq]
  refine ⟨⟨pairwise_fields e, ?_⟩, ?_⟩
  · obtain ⟨_ | i, name, count, enabled⟩ := e
    · exact ⟨minInt_le_of_holds h.count, trivial, trivial, trivial⟩
    · exact ⟨minInt_le_of_holds h.count, trivial, minInt_le_of_holds (h.id i rfl), trivial, trivial⟩
  · have hdepth : Json.depth (.obj e.fields) = 1 := by
      obtain ⟨_ | i, name, count, enabled⟩ := e <;> rfl
    rw [hdepth]
    decide

theorem returns (h : e.Fits) : Document.Returns e := ⟨readable_toJson h, ofJson_toJson h⟩

/-! ## Forms -/

def texts (e : Counter) : List (String × String) :=
  [("count", String.ofList (Json.intChars e.count)), ("enabled", if e.enabled then "true" else "false")] ++
    (e.id.map fun i => ("id", String.ofList (Json.intChars i))).toList ++ [("name", e.name)]

theorem formPairs_fields (e : Counter) : Codec.formPairs e.fields = .ok e.texts := by
  obtain ⟨_ | i, name, count, enabled⟩ := e <;> rfl

theorem read_texts (e : Counter) : ∃ x, Counter.read (.obj (Document.ofTexts e.texts)) = .error x :=
  ⟨_, readRecord_of_fault (firstFault_of_error (f := countField) rfl rfl)⟩

theorem readForm_texts (h : e.Fits) : Counter.readForm e.texts = some e := by
  have hnumber {i : Int} (hi : IntRange.i64.holds i = true) :
      number.readText (String.ofList (Json.intChars i)) = some i := by
    change (IntRange.i64.read _).toOption = _
    rw [IntRange.read_intChars hi]
    rfl
  have hcount : countField.scalar.readText (String.ofList (Json.intChars e.count)) = some e.count :=
    hnumber h.count
  have henabled : enabledField.scalar.readText (if e.enabled then "true" else "false") =
      some e.enabled := by
    cases e.enabled <;> rfl
  have hname : nameField.scalar.readText e.name = some e.name := rfl
  have hid (i : Int) (hi : e.id = some i) :
      idField.scalar.readText (String.ofList (Json.intChars i)) = some (some i) := by
    change (number.readText _).map some = _
    rw [hnumber (h.id i hi)]
    rfl
  obtain ⟨id, name, count, enabled⟩ := e
  cases id with
  | none =>
      rw [readForm, Field.ofForm_of_none rfl, Field.ofForm_of_some rfl hname,
        Field.ofForm_of_some rfl hcount, Field.ofForm_of_some rfl henabled]
      rfl
  | some i =>
      rw [readForm, Field.ofForm_of_some rfl (hid i rfl), Field.ofForm_of_some rfl hname,
        Field.ofForm_of_some rfl hcount, Field.ofForm_of_some rfl henabled]
      rfl

theorem ofJson_texts (h : e.Fits) :
    (Document.ofJson (.obj (Document.ofTexts e.texts)) : Except TypeError Counter) = .ok e := by
  obtain ⟨x, hx⟩ := read_texts e
  exact Document.ofJson_ofTexts hx (readForm_texts h)

theorem form_carries (h : e.Fits) : Codec.form.Carries e :=
  Codec.form_carries (toJson_eq e) (formPairs_fields e) (pairwise_fields e) (ofJson_texts h)

theorem carries (h : e.Fits) {mediaType : String} {c : Codec} (hspoken : Spoken mediaType c) :
    c.Carries e :=
  Codec.carries_of_known hspoken.known (returns h) (form_carries h)

/-! ## Identifiers -/

theorem getField_id (h : e.Fits) : IdLens.getField "id" e = e.id := by
  rw [IdLens.getField, toJson_eq]
  obtain ⟨_ | i, name, count, enabled⟩ := e
  · rfl
  · change ((Scalar.integer .i64 "i64").read (.int i)).toOption = some i
    rw [Scalar.read_integer (h.id i rfl)]
    rfl

theorem setField_id (h : e.Fits) {i : Int} (hid : e.id = some i) :
    IdLens.setField "id" i e = .ok e := by
  have hread : (Document.read (.obj e.fields) : Except TypeError Counter) = .ok e := read_fields h
  have hinsert : Json.insertField "id" (Identifier.toJson i) e.fields = e.fields := by
    obtain ⟨_, name, count, enabled⟩ := e
    cases hid
    rfl
  rw [IdLens.setField, toJson_eq]
  simp only [hinsert, hread]

end WebResource.Sample.Counter
