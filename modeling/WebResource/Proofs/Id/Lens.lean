import WebResource.Id.Lens
import WebResource.Proofs.Document.Records

namespace WebResource

/-!
# Setting an identifier

The lens of a field that an entity has sets it or refuses to, and leaves the other fields as they
are. A record does not look at a field that it does not have: setting it succeeds and does nothing.
-/

variable {E I : Type} [Document E] [Identifier I] {name : String} {names : List String} {i : I}
  {e before after : E}

/-- An identifier that is read back from what is written for it, which is not null. -/
structure Identifier.Sound (i : I) : Prop where
  ofJson_toJson : Identifier.ofJson (Identifier.toJson i) = .ok i
  toJson_ne_null : Identifier.toJson i ≠ .null

namespace Identifier

theorem sound_text (s : String) : Sound s := ⟨rfl, nofun⟩

theorem sound_integer {i : Int} (h : IntRange.i64.holds i = true) : Sound i :=
  ⟨Scalar.read_integer h "i64", nofun⟩

theorem sound_json {j : Json} (h : j ≠ .null) : Sound j := ⟨rfl, h⟩

end Identifier

namespace IdLens

/-- The identifier is written in its field, and the other fields are as before. -/
structure Assigned (name : String) (i : I) (before after : E) : Prop where
  written : (Document.toJson after).get? name = some (Identifier.toJson i)
  others : ∀ other, other ≠ name →
    (Document.toJson after).get? other = (Document.toJson before).get? other

theorem Assigned.get (h : Assigned name i before after) (hi : Identifier.Sound i) :
    getField name after = some i := by
  rw [getField, h.written]
  split
  · next hnone => cases hnone
  · next hnull => exact absurd (Option.some.inj hnull) hi.toJson_ne_null
  · next j _ hj =>
      cases hj
      rw [hi.ofJson_toJson]
      rfl

theorem Assigned.eq_some {id? : Option I} (h : Assigned name i before after)
    (hinj : Function.Injective (Identifier.toJson : I → Json))
    (hid : (Document.toJson after).get? name = id?.map Identifier.toJson) : id? = some i :=
  Option.map_injective hinj (hid.symm.trans h.written)

theorem read_of_setField (h : setField name i before = .ok after) :
    ∃ fs, Document.toJson before = .obj fs ∧
      Document.read (.obj (Json.insertField name (Identifier.toJson i) fs)) = .ok after := by
  rw [setField] at h
  split at h
  · next fs hobject =>
      refine ⟨fs, hobject, ?_⟩
      split at h
      · next hread =>
          cases h
          exact hread
      · cases h
  · cases h

theorem setField_of_read {fs : Json.Fields} (hobject : Document.toJson before = .obj fs)
    (hread : Document.read (.obj (Json.insertField name (Identifier.toJson i) fs)) = .ok after) :
    setField name i before = .ok after := by
  rw [setField, hobject]
  simp only [hread]

/-! ## Records -/

theorem assigned_of_recorded (hrecord : Document.Recorded E names) (hname : name ∈ names)
    (hi : Identifier.toJson i ≠ .null) (h : setField name i before = .ok after) :
    Assigned name i before after := by
  obtain ⟨fs, hobject, hread⟩ := read_of_setField h
  have hwritten := Json.findField_insertField name (Identifier.toJson i) fs
  constructor
  · rw [hrecord.keeps hread hname (hwritten ▸ fun hnull => hi (Option.some.inj hnull)), hwritten]
  · intro other hne
    have hkept := Json.findField_insertField_of_ne hne (Identifier.toJson i) fs
    by_cases hother : other ∈ names
    · have hbefore : (Document.toJson before).get? other = Json.findField other fs := by
        rw [hobject, Json.get?]
      have hpresent := hrecord.present before other
      rw [hbefore] at hpresent ⊢
      rw [hrecord.keeps hread hother (hkept ▸ hpresent), hkept]
    · rw [hrecord.named after hother, hrecord.named before hother]

/-- A field that a record does not have is set without effect. -/
theorem setField_of_not_mem (hrecord : Document.Recorded E names) (hname : name ∉ names)
    (hread : Document.read (Document.toJson e) = .ok e) : setField name i e = .ok e := by
  obtain ⟨fs, hobject⟩ := hrecord.object e
  rw [hobject] at hread
  exact setField_of_read hobject ((hrecord.ignores fs _ hname).trans hread)

theorem getField_of_not_mem (hrecord : Document.Recorded E names) (hname : name ∉ names) :
    (getField name e : Option I) = none := by
  rw [getField, hrecord.named e hname]

/-! ## Documents of any shape -/

theorem assigned_of_document {before after : Json} (h : setField name i before = .ok after) :
    Assigned name i before after := by
  obtain ⟨fs, hobject, hread⟩ := read_of_setField h
  cases hread
  have hsorted : fs.Pairwise fun f g => f.1 < g.1 := by
    cases before with
    | obj gs =>
        obtain ⟨hs, hgs, hsorted⟩ := Json.ofFields_eq gs
        have hfs : Json.obj fs = .obj hs := hobject.symm.trans hgs
        exact Json.obj.inj hfs ▸ hsorted
    | _ => cases hobject
  have hafter : Document.toJson (Json.obj (Json.insertField name (Identifier.toJson i) fs)) =
      .obj (Json.insertField name (Identifier.toJson i) fs) :=
    Json.ofFields_of_pairwise (Json.pairwise_insertField name _ hsorted)
  constructor
  · rw [hafter]
    exact Json.findField_insertField name _ fs
  · intro other hne
    rw [hafter, hobject]
    exact Json.findField_insertField_of_ne hne _ fs

/-! ## Setting in place -/

/-- Sets the identifier of an entity in its place, where it stays as it is if that is refused. -/
def assign (lens : IdLens E I) (i : I) (e : E) : Except IdError Unit × E :=
  match lens.set i e with
  | .ok e' => (.ok (), e')
  | .error x => (.error x, e)

/-- Setting a field either is refused and leaves the entity as it is, or the identifier can be got
from the field then, and the other fields keep their values. -/
def AllOrNothing (name : String) (i : I) (e : E) : Prop :=
  (∃ x, assign (byField name) i e = (.error x, e)) ∨
    ∃ after, assign (byField name) i e = (.ok (), after) ∧ (byField name).get after = some i ∧
      ∀ other, other ≠ name →
        (Document.toJson after).get? other = (Document.toJson e).get? other

/-- Setting a field succeeds and does nothing, and there is no identifier to be got from it. -/
def Overlooked (name : String) (i : I) (e : E) : Prop :=
  assign (byField name) i e = (.ok (), e) ∧ ((byField name).get e : Option I) = none

theorem allOrNothing_of_assigned (hi : Identifier.Sound i)
    (h : ∀ after, setField name i e = .ok after → Assigned name i e after) :
    AllOrNothing name i e := by
  cases hset : setField name i e with
  | error x =>
      refine Or.inl ⟨x, ?_⟩
      simp only [assign, byField, hset]
  | ok after =>
      refine Or.inr ⟨after, ?_, (h after hset).get hi, (h after hset).others⟩
      simp only [assign, byField, hset]

theorem Overlooked.not_allOrNothing (h : Overlooked name i e) : ¬AllOrNothing name i e := by
  rintro (⟨x, hset⟩ | ⟨after, hset, hget, -⟩)
  · cases h.1.symm.trans hset
  · cases h.1.symm.trans hset
    cases h.2.symm.trans hget

/-- The identifier is set or refused in one of the fields named, and overlooked in another. -/
def Heeds (names : List String) (name : String) (i : I) (e : E) : Prop :=
  (AllOrNothing name i e ↔ name ∈ names) ∧ (name ∉ names → Overlooked name i e)

theorem heeds_of_recorded (hrecord : Document.Recorded E names) (hi : Identifier.Sound i)
    (hread : Document.read (Document.toJson e) = .ok e) : Heeds names name i e := by
  have hother (hname : name ∉ names) : Overlooked name i e := by
    refine ⟨?_, getField_of_not_mem hrecord hname⟩
    simp only [assign, byField, setField_of_not_mem hrecord hname hread]
  refine ⟨⟨fun hall => ?_, fun hname => ?_⟩, hother⟩
  · by_contra hname
    exact (hother hname).not_allOrNothing hall
  · exact allOrNothing_of_assigned hi fun after hset =>
      assigned_of_recorded hrecord hname hi.toJson_ne_null hset

theorem allOrNothing_document (hi : Identifier.Sound i) (name : String) (e : Json) :
    AllOrNothing name i e :=
  allOrNothing_of_assigned hi fun _ => assigned_of_document

end IdLens

end WebResource
