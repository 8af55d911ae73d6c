import WebResource.Proofs.Document.TextRecords
import WebResource.Proofs.Sample.Counter
import WebResource.Proofs.Text.Uuid
import WebResource.Sample.Store

namespace WebResource

/-!
# Sample entities through forms

The sample entities come back from forms as they are, whatever their texts look like and whether or
not they have identifiers.
-/

theorem Scalar.read_uuid (u : Uuid) : Scalar.uuid.read (.str u.toText) = .ok u := by
  simp only [Scalar.uuid, Uuid.parse_toText]

namespace Sample

def Foo.record : TextRecord Foo String where
  type := "Foo"
  key := "foo"
  ids := .text
  write := fun s => s
  id := Foo.id
  text := Foo.foo
  make := Foo.mk
  key_ne := by decide
  make_eq _ := rfl
  id_make _ _ := rfl
  text_make _ _ := rfl
  read_write _ := rfl
  declared_eq _ := rfl
  read_eq _ := rfl

def Label.record : TextRecord Label String where
  type := "Label"
  key := "label"
  ids := .text
  write := fun s => s
  id := Label.id
  text := Label.label
  make := Label.mk
  key_ne := by decide
  make_eq _ := rfl
  id_make _ _ := rfl
  text_make _ _ := rfl
  read_write _ := rfl
  declared_eq _ := rfl
  read_eq _ := rfl

def Project.record : TextRecord Project Uuid where
  type := "Project"
  key := "name"
  ids := .uuid
  write := Uuid.toText
  id := Project.id
  text := Project.name
  make := Project.mk
  key_ne := by decide
  make_eq _ := rfl
  id_make _ _ := rfl
  text_make _ _ := rfl
  read_write := Scalar.read_uuid
  declared_eq _ := rfl
  read_eq _ := rfl

def NoteDocument.record : TextRecord NoteDocument Uuid where
  type := "NoteDto"
  key := "text"
  ids := .uuid
  write := Uuid.toText
  id := NoteDocument.id
  text := NoteDocument.text
  make := NoteDocument.mk
  key_ne := by decide
  make_eq _ := rfl
  id_make _ _ := rfl
  text_make _ _ := rfl
  read_write := Scalar.read_uuid
  declared_eq _ := rfl
  read_eq _ := rfl

/-- Each of the sample entities comes back from the form that is written for it. -/
theorem form_carries_entities :
    (∀ e : Counter, e.Fits → Codec.form.Carries e) ∧ (∀ e : Foo, Codec.form.Carries e) ∧
      (∀ e : Label, Codec.form.Carries e) ∧ (∀ e : Project, Codec.form.Carries e) ∧
      ∀ e : NoteDocument, Codec.form.Carries e :=
  ⟨fun _ => Counter.form_carries, Foo.record.form_carries, Label.record.form_carries,
    Project.record.form_carries, NoteDocument.record.form_carries⟩

theorem form_carries_entities_number :
    ∃ j, Codec.form.unmarshal (Utf8.encode "count=-7&enabled=true&id=0&name=%2B12") = .ok j ∧
      Document.ofJson j = .ok (⟨some 0, "+12", -7, true⟩ : Counter) := by
  have hfits : (⟨some 0, "+12", -7, true⟩ : Counter).Fits :=
    ⟨fun i hi => Option.some.inj hi ▸ by decide, by decide⟩
  obtain ⟨body, j, hbody, hj, he⟩ := form_carries_entities.1 _ hfits
  have htext : body = Utf8.encode "count=-7&enabled=true&id=0&name=%2B12" :=
    Except.ok.inj (hbody.symm.trans rfl)
  exact ⟨j, htext ▸ hj, he⟩

end Sample

end WebResource
