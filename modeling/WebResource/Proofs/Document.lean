import WebResource.Document.Field
import WebResource.Problem

namespace WebResource

/-!
# Typed documents are read back

A record is read from its own fields, and from the texts of its fields if one of them is not text
itself.
-/

variable {α E : Type} {f : Field α} {fs : Json.Fields} {j : Json} {a : α}

/-! ## Fields -/

theorem Json.findField_insertField (k : String) (v : Json) (fs : Json.Fields) :
    Json.findField k (Json.insertField k v fs) = some v := by
  induction fs with
  | nil => rw [Json.insertField, Json.findField, if_pos rfl]
  | cons f fs ih =>
      obtain ⟨k', v'⟩ := f
      rw [Json.insertField]
      split
      · rw [Json.findField, if_pos rfl]
      · next hne =>
          split
          · rw [Json.findField, if_pos rfl]
          · rw [Json.findField, if_neg hne]
            exact ih

namespace Field

theorem fault_of_ok (h : f.scalar.read j = .ok a) : f.fault j = none := by
  rw [fault, h]

theorem fault_of_error {x : TypeError} (h : f.scalar.read j = .error x) : f.fault j = some x := by
  rw [fault, h]

theorem ofFields_of_some (hfind : Json.findField f.name fs = some j) (h : f.scalar.read j = .ok a) :
    f.ofFields fs = .ok a := by
  rw [ofFields, hfind]
  exact h

theorem ofFields_of_none (hfind : Json.findField f.name fs = none) (h : f.absent = some a) :
    f.ofFields fs = .ok a := by
  rw [ofFields, hfind]
  simp only [h]

theorem ofForm_of_some {ps : List (String × String)} {t : String}
    (hfind : findText f.name ps = some t) (h : f.scalar.readText t = some a) :
    f.ofForm ps = some a := by
  rw [ofForm, hfind]
  exact h

theorem ofForm_of_none {ps : List (String × String)} (hfind : findText f.name ps = none) :
    f.ofForm ps = f.absent := by
  rw [ofForm, hfind]

end Field

theorem Scalar.read_integer {r : IntRange} {i : Int} (h : r.holds i = true) (name : String) :
    (Scalar.integer r name).read (.int i) = .ok i :=
  if_pos h

/-! ## Records -/

namespace Document

/-- The fields of a form as a document. -/
def ofTexts (ps : List (String × String)) : Json.Fields := ps.map fun p => (p.1, .str p.2)

theorem textFields_ofTexts (ps : List (String × String)) : textFields (ofTexts ps) = some ps := by
  induction ps with
  | nil => rfl
  | cons p ps ih =>
      change (textFields (ofTexts ps)).map _ = _
      rw [ih]
      rfl

variable [Document E] {e : E}

theorem ofJson_of_read (h : Document.read j = .ok e) : ofJson j = .ok e := by
  rw [ofJson, h]

/-- A document whose texts do not have the types of the fields is read as a form. -/
theorem ofJson_ofTexts {ps : List (String × String)} {x : TypeError}
    (hread : (Document.read (.obj (ofTexts ps)) : Except TypeError E) = .error x)
    (hform : Document.readForm ps = some e) : ofJson (.obj (ofTexts ps)) = .ok e := by
  rw [ofJson, hread]
  simp only [textFields_ofTexts, Option.bind_some, hform]

end Document

section Record

variable {faults : List (String × (Json → Option TypeError))} {k : String} {x : TypeError}

theorem firstFault_of_ok (hfind : faults.find? (·.1 == k) = some f.entry)
    (h : f.scalar.read j = .ok a) : firstFault faults ((k, j) :: fs) = firstFault faults fs := by
  simp only [firstFault, List.findSome?_cons, hfind, Field.entry, Option.bind_some,
    Field.fault_of_ok h]

theorem firstFault_of_error (hfind : faults.find? (·.1 == k) = some f.entry)
    (h : f.scalar.read j = .error x) : firstFault faults ((k, j) :: fs) = some x := by
  simp only [firstFault, List.findSome?_cons, hfind, Field.entry, Option.bind_some,
    Field.fault_of_error h]

variable {name : String} {count : Nat} {take : Source → String → Except TypeError E}

theorem readRecord_of_fault (h : firstFault faults fs = some x) :
    readRecord name count faults take (.obj fs) = .error x := by
  simp only [readRecord, h]

theorem readRecord_of_fields {e : E} (h : firstFault faults fs = none)
    (htake : ∀ expected, take (.fields fs) expected = .ok e) :
    readRecord name count faults take (.obj fs) = .ok e := by
  simp only [readRecord, h, htake]

end Record

end WebResource
