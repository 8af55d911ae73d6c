import WebResource.Proofs.Id.Lens
import WebResource.Proofs.Sample.Texts

namespace WebResource.Sample

/-!
# Identifiers of sample entities

What comes of setting a field of a sample entity to an identifier: a document takes any field, and a
typed entity ignores one that it does not have.
-/

/-! ## Foos -/

namespace Foo

def names : List String := ["id", "foo"]

theorem recorded : Document.Recorded Foo names := record.recorded Scalar.exact_text

theorem read_toJson (e : Foo) : Document.read (Document.toJson e) = .ok e := by
  rw [record.toJson_eq]
  exact record.read_fields e

end Foo

/-! ## Counters -/

namespace Counter

def names : List String := ["id", "name", "count", "enabled"]

theorem findField_id (e : Counter) : Json.findField "id" e.fields = e.id.map .int := by
  obtain ⟨_ | i, name, count, enabled⟩ := e <;> rfl

theorem findField_name (e : Counter) : Json.findField "name" e.fields = some (.str e.name) := by
  obtain ⟨_ | i, name, count, enabled⟩ := e <;> rfl

theorem findField_count (e : Counter) : Json.findField "count" e.fields = some (.int e.count) := rfl

theorem findField_enabled (e : Counter) :
    Json.findField "enabled" e.fields = some (.bool e.enabled) := rfl

theorem findField_other (e : Counter) {name : String} (h : name ∉ names) :
    Json.findField name e.fields = none := by
  simp only [names, List.mem_cons, List.not_mem_nil, or_false, not_or] at h
  obtain ⟨hid, hname, hcount, henabled⟩ := h
  obtain ⟨_ | i, name, count, enabled⟩ := e <;>
    simp [fields, Document.optionalField, Json.findField, hid, hname, hcount, henabled]

/-- What a counter is read from. -/
theorem ofFields_of_read {fs : Json.Fields} {e : Counter} (h : Counter.read (.obj fs) = .ok e) :
    idField.ofFields fs = .ok e.id ∧ nameField.ofFields fs = .ok e.name ∧
      countField.ofFields fs = .ok e.count ∧ enabledField.ofFields fs = .ok e.enabled := by
  rw [Counter.read] at h
  obtain ⟨_, htake⟩ := take_of_readRecord h
  obtain ⟨id, hid, htake⟩ := ok_of_bind htake
  obtain ⟨name, hname, htake⟩ := ok_of_bind htake
  obtain ⟨count, hcount, htake⟩ := ok_of_bind htake
  obtain ⟨enabled, henabled, htake⟩ := ok_of_bind htake
  cases htake
  exact ⟨hid, hname, hcount, henabled⟩

theorem exact_number : number.Exact .int := Scalar.exact_integer .i64 "i64"

theorem recorded : Document.Recorded Counter names where
  object e := ⟨e.fields, toJson_eq e⟩
  present e name := by
    rw [toJson_eq, Json.get?]
    by_cases hname : name ∈ names
    · rcases (by simpa [names] using hname) with rfl | rfl | rfl | rfl
      · rw [findField_id]
        cases e.id <;> simp
      · simp [findField_name]
      · simp [findField_count]
      · simp [findField_enabled]
    · simp [findField_other e hname]
  named e name hname := by
    rw [toJson_eq]
    exact findField_other e hname
  keeps {fs e name} hread hname hnull := by
    obtain ⟨hid, hnames, hcount, henabled⟩ := ofFields_of_read hread
    rw [toJson_eq, Json.get?]
    rcases (by simpa [names] using hname) with rfl | rfl | rfl | rfl
    · rw [findField_id]
      exact (Field.exact_optional "id" exact_number hid hnull).symm
    · rw [findField_name]
      exact (Field.exact_required "name" Scalar.exact_text hnames hnull).symm
    · rw [findField_count]
      exact (Field.exact_required "count" exact_number hcount hnull).symm
    · rw [findField_enabled]
      exact (Field.exact_required "enabled" Scalar.exact_bool henabled hnull).symm
  ignores fs v name hname := by
    simp only [names, List.mem_cons, List.not_mem_nil, or_false, not_or] at hname
    obtain ⟨hid, hnames, hcount, henabled⟩ := hname
    change Counter.read _ = Counter.read _
    rw [Counter.read]
    apply readRecord_insertField
    · simp [Field.entry, idField, nameField, countField, enabledField, Field.defaulted,
        Field.required, Ne.symm hid, Ne.symm hnames, Ne.symm hcount, Ne.symm henabled]
    · intro expected
      simp only [Source.take]
      rw [Field.ofFields_insertField idField (Ne.symm hid),
        Field.ofFields_insertField nameField (Ne.symm hnames),
        Field.ofFields_insertField countField (Ne.symm hcount),
        Field.ofFields_insertField enabledField (Ne.symm henabled)]

theorem read_toJson {e : Counter} (h : e.Fits) : Document.read (Document.toJson e) = .ok e := by
  rw [toJson_eq]
  exact read_fields h

end Counter

/-! ## Setting identifiers -/

/-- What comes of setting a field of each of the sample entities to an identifier. -/
def SetsField {I : Type} [Identifier I] (name : String) (i : I) : Prop :=
  (∀ e : Foo, IdLens.Heeds Foo.names name i e) ∧
    (∀ e : Counter, e.Fits → IdLens.Heeds Counter.names name i e) ∧
      ∀ e : Json, IdLens.AllOrNothing name i e

theorem setsField_of_sound {I : Type} [Identifier I] {i : I} (h : Identifier.Sound i) (name : String) :
    SetsField name i :=
  ⟨fun e => IdLens.heeds_of_recorded Foo.recorded h e.read_toJson,
    fun _ he => IdLens.heeds_of_recorded Counter.recorded h (Counter.read_toJson he),
    IdLens.allOrNothing_document h name⟩

/-- A field is set or refused as a whole, whatever the identifier, if and only if the entity has
it. Setting a field that a typed entity does not have is reported as a success, and does nothing. -/
theorem set_allOrNothing_iff (name : String) :
    (∀ i : String, SetsField name i) ∧ (∀ i : Int, IntRange.i64.holds i = true → SetsField name i) ∧
      ∀ i : Json, i ≠ .null → SetsField name i :=
  ⟨fun i => setsField_of_sound (Identifier.sound_text i) name,
    fun _ hi => setsField_of_sound (Identifier.sound_integer hi) name,
    fun _ hi => setsField_of_sound (Identifier.sound_json hi) name⟩

theorem set_allOrNothing_iff_misspelt :
    ¬IdLens.AllOrNothing "name" "b" (⟨some "a", "x"⟩ : Foo) ∧
      IdLens.AllOrNothing "count" (5 : Int) (⟨none, "c", 1, true⟩ : Counter) ∧
      IdLens.AllOrNothing "foo" (Json.bool true) (⟨some "a", "x"⟩ : Foo) := by
  have hfits : (⟨none, "c", 1, true⟩ : Counter).Fits := ⟨nofun, by decide⟩
  refine ⟨fun h => ?_, ?_, ?_⟩
  · exact absurd ((((set_allOrNothing_iff "name").1 "b").1 _).1.mp h) (by decide)
  · exact (((set_allOrNothing_iff "count").2.1 5 (by decide)).2.1 _ hfits).1.mpr (by decide)
  · exact (((set_allOrNothing_iff "foo").2.2 (.bool true) nofun).1 _).1.mpr (by decide)

end WebResource.Sample
