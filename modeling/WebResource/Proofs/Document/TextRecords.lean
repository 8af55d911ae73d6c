import WebResource.Proofs.Document.Records

namespace WebResource

/-!
# Records of texts

Records of an identifier that is left out where there is none and a text under another name. Their
documents hold nothing but texts, so a form gives back the document itself.
-/

variable {α E : Type} {fs : Json.Fields}

open Document (optionalField ofTexts)

/-! ## Documents of texts -/

theorem Document.ofTexts_of_texts (h : ∀ f ∈ fs, ∃ s, f.2 = .str s) : ∃ ps, fs = ofTexts ps := by
  induction fs with
  | nil => exact ⟨[], rfl⟩
  | cons f fs ih =>
      obtain ⟨s, hs⟩ := h f List.mem_cons_self
      obtain ⟨ps, hps⟩ := ih fun g hg => h g (List.mem_cons_of_mem f hg)
      refine ⟨(f.1, s) :: ps, ?_⟩
      change f :: fs = (f.1, Json.str s) :: ofTexts ps
      rw [← hs, ← hps]

/-- A document of texts is the same document behind a form. -/
theorem Codec.form_carries_of_texts [Document E] {e : E} (hfields : Document.toJson e = .obj fs)
    (htexts : ∀ f ∈ fs, ∃ s, f.2 = .str s) (hsorted : fs.Pairwise fun f g => f.1 < g.1)
    (hread : Document.read (.obj fs) = .ok e) : form.Carries e := by
  obtain ⟨ps, rfl⟩ := Document.ofTexts_of_texts htexts
  exact form_carries hfields (formPairs_ofTexts ps) hsorted (Document.ofJson_of_read hread)

theorem firstFault_eq_none {faults : List (String × (Json → Option TypeError))}
    (h : ∀ f ∈ fs, ∀ entry, faults.find? (·.1 == f.1) = some entry → entry.2 f.2 = none) :
    firstFault faults fs = none := by
  rw [firstFault, List.findSome?_eq_none_iff]
  rintro ⟨k, v⟩ hf
  change (faults.find? (·.1 == k)).bind (fun entry => entry.2 v) = none
  cases hfind : faults.find? (·.1 == k) with
  | none => rfl
  | some entry => exact h (k, v) hf entry hfind

/-! ## An identifier and a text -/

/-- A type of records of an identifier, which may be left out, and a text named `key`. -/
structure TextRecord (E α : Type) [Document E] where
  type : String
  key : String
  ids : Scalar α
  write : α → String
  id : E → Option α
  text : E → String
  make : Option α → String → E
  key_ne : key ≠ "id"
  make_eq : ∀ e, make (id e) (text e) = e
  id_make : ∀ i t, id (make i t) = i
  text_make : ∀ i t, text (make i t) = t
  read_write : ∀ a, ids.read (.str (write a)) = .ok a
  declared_eq : ∀ e, Document.declared e =
    .obj (optionalField "id" ((id e).map fun a => .str (write a)) ++ [(key, .str (text e))])
  read_eq : ∀ j, Document.read j =
    readRecord type 2 [(Field.defaulted "id" ids.optional none).entry, (Field.required key .text).entry]
      (fun src expected => do
        let i ← src.take expected 0 (.defaulted "id" ids.optional none)
        let t ← src.take expected 1 (.required key .text)
        return make i t) j

namespace TextRecord

variable [Document E] (r : TextRecord E α) (e : E)

def idFields : Json.Fields := optionalField "id" ((r.id e).map fun a => .str (r.write a))

/-- The fields in the order of their names. -/
def fields : Json.Fields := Json.insertField r.key (.str (r.text e)) (r.idFields e)

variable {r e}

theorem mem_idFields {f : String × Json} (h : f ∈ r.idFields e) :
    ∃ a, r.id e = some a ∧ f = ("id", .str (r.write a)) := by
  rw [idFields] at h
  cases hid : r.id e with
  | none =>
      rw [hid] at h
      cases h
  | some a =>
      rw [hid] at h
      exact ⟨a, rfl, List.mem_singleton.mp h⟩

theorem mem_fields {f : String × Json} (h : f ∈ r.fields e) :
    f = (r.key, .str (r.text e)) ∨ ∃ a, r.id e = some a ∧ f = ("id", .str (r.write a)) :=
  (Json.mem_insertField h).imp_right mem_idFields

theorem toJson_eq (r : TextRecord E α) (e : E) : Document.toJson e = .obj (r.fields e) := by
  rw [Document.toJson, r.declared_eq, fields, idFields]
  cases r.id e <;> rfl

theorem pairwise_fields (r : TextRecord E α) (e : E) : (r.fields e).Pairwise fun f g => f.1 < g.1 := by
  apply Json.pairwise_insertField
  rw [idFields]
  cases r.id e with
  | none => exact List.Pairwise.nil
  | some a => exact List.pairwise_singleton _ _

theorem findField_key (r : TextRecord E α) (e : E) :
    Json.findField r.key (r.fields e) = some (.str (r.text e)) :=
  Json.findField_insertField r.key _ _

theorem findField_id (r : TextRecord E α) (e : E) :
    Json.findField "id" (r.fields e) = (r.id e).map fun a => .str (r.write a) := by
  rw [fields, Json.findField_insertField_of_ne r.key_ne.symm, idFields]
  cases r.id e <;> rfl

theorem findField_other (r : TextRecord E α) (e : E) {name : String} (hid : name ≠ "id")
    (hkey : name ≠ r.key) : Json.findField name (r.fields e) = none := by
  rw [fields, Json.findField_insertField_of_ne hkey, idFields]
  cases r.id e with
  | none => rfl
  | some a => exact if_neg hid

/-- A record is read from its own fields. -/
theorem read_fields (r : TextRecord E α) (e : E) : Document.read (.obj (r.fields e)) = .ok e := by
  have hwritten (a : α) : r.ids.optional.read (.str (r.write a)) = .ok (some a) := by
    change (r.ids.read _).map some = _
    rw [r.read_write]
    rfl
  have hfaults : firstFault [(Field.defaulted "id" r.ids.optional none).entry,
      (Field.required r.key .text).entry] (r.fields e) = none := by
    apply firstFault_eq_none
    intro f hf entry hentry
    rcases mem_fields hf with rfl | ⟨a, -, rfl⟩
    · have hkey : ("id" == r.key) = false := beq_eq_false_iff_ne.mpr r.key_ne.symm
      simp only [Field.entry, Field.defaulted, Field.required, List.find?_cons, hkey, BEq.rfl] at hentry
      cases hentry
      rfl
    · cases hentry
      exact Field.fault_of_ok (hwritten a)
  have hid : (Field.defaulted "id" r.ids.optional none).ofFields (r.fields e) = .ok (r.id e) := by
    have hfind := r.findField_id e
    cases hsome : r.id e with
    | none =>
        rw [hsome] at hfind
        exact Field.ofFields_of_none hfind rfl
    | some a =>
        rw [hsome] at hfind
        exact Field.ofFields_of_some hfind (hwritten a)
  have htext : (Field.required r.key .text).ofFields (r.fields e) = .ok (r.text e) :=
    Field.ofFields_of_some (r.findField_key e) rfl
  rw [r.read_eq]
  apply readRecord_of_fields hfaults
  intro expected
  simp only [Source.take]
  rw [hid, htext]
  exact congrArg Except.ok (r.make_eq e)

theorem ofFields_of_read (h : Document.read (.obj fs) = .ok e) :
    (Field.defaulted "id" r.ids.optional none).ofFields fs = .ok (r.id e) ∧
      (Field.required r.key .text).ofFields fs = .ok (r.text e) := by
  rw [r.read_eq] at h
  obtain ⟨_, htake⟩ := take_of_readRecord h
  obtain ⟨i, hid, htake⟩ := ok_of_bind htake
  obtain ⟨t, htext, htake⟩ := ok_of_bind htake
  cases htake
  rw [r.id_make, r.text_make]
  exact ⟨hid, htext⟩

theorem recorded (r : TextRecord E α) (hexact : r.ids.Exact fun a => .str (r.write a)) :
    Document.Recorded E ["id", r.key] where
  object e := ⟨r.fields e, r.toJson_eq e⟩
  present e name := by
    rw [r.toJson_eq, Json.get?]
    by_cases hid : name = "id"
    · rw [hid, findField_id]
      cases r.id e <;> nofun
    · by_cases hkey : name = r.key
      · rw [hkey, findField_key]
        nofun
      · rw [r.findField_other e hid hkey]
        nofun
  named e name hname := by
    rw [r.toJson_eq]
    exact r.findField_other e (fun hid => hname (hid ▸ List.mem_cons_self))
      fun hkey => hname (hkey ▸ List.mem_cons_of_mem "id" List.mem_cons_self)
  keeps {fs e name} hread hname hnull := by
    obtain ⟨hid, htext⟩ := ofFields_of_read (r := r) hread
    rw [r.toJson_eq, Json.get?]
    rcases List.mem_cons.mp hname with rfl | hname
    · rw [r.findField_id]
      exact (Field.exact_optional "id" hexact hid hnull).symm
    · cases List.mem_singleton.mp hname
      rw [r.findField_key]
      exact (Field.exact_required r.key Scalar.exact_text htext hnull).symm
  ignores fs v name hname := by
    have hid : "id" ≠ name := fun h => hname (h ▸ List.mem_cons_self)
    have hkey : r.key ≠ name := fun h => hname (h ▸ List.mem_cons_of_mem "id" List.mem_cons_self)
    rw [r.read_eq, r.read_eq]
    apply readRecord_insertField
    · simp [Field.entry, Field.defaulted, Field.required, hid, hkey]
    · intro expected
      simp only [Source.take]
      rw [Field.ofFields_insertField _ hid, Field.ofFields_insertField _ hkey]

theorem form_carries (r : TextRecord E α) (e : E) : Codec.form.Carries e := by
  apply Codec.form_carries_of_texts (r.toJson_eq e) _ (r.pairwise_fields e) (r.read_fields e)
  intro f hf
  rcases mem_fields hf with rfl | ⟨a, -, rfl⟩
  · exact ⟨_, rfl⟩
  · exact ⟨_, rfl⟩

end TextRecord

end WebResource
