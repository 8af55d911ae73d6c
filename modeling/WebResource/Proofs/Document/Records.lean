import Mathlib.Data.String.Basic
import WebResource.Proofs.Codec.Documents

namespace WebResource

/-!
# Records and their fields

A field that is put into an object leaves the others as they are. A record is written with the
fields that it was read from, and pays no heed to fields that it does not have.
-/

variable {α β E : Type} {fs : Json.Fields} {j : Json}

/-! ## Objects with their fields in order -/

namespace Json

theorem findField_insertField_of_ne {k other : String} (h : other ≠ k) (v : Json) (fs : Fields) :
    findField other (insertField k v fs) = findField other fs := by
  induction fs with
  | nil => exact if_neg h
  | cons f fs ih =>
      obtain ⟨k', v'⟩ := f
      rw [insertField]
      split
      · next heq =>
          rw [findField, findField, if_neg h, if_neg (heq ▸ h)]
      · split
        · rw [findField, if_neg h]
        · rw [findField, findField, ih]

theorem mem_insertField {k : String} {v : Json} {f : String × Json} (h : f ∈ insertField k v fs) :
    f = (k, v) ∨ f ∈ fs := by
  induction fs with
  | nil => exact Or.inl (List.mem_singleton.mp h)
  | cons g fs ih =>
      rw [insertField] at h
      split at h
      · exact (List.mem_cons.mp h).imp_right fun hf => List.mem_cons_of_mem g hf
      · split at h
        · exact List.mem_cons.mp h
        · rcases List.mem_cons.mp h with rfl | h
          · exact Or.inr List.mem_cons_self
          · exact (ih h).imp_right fun hf => List.mem_cons_of_mem g hf

theorem pairwise_insertField (k : String) (v : Json) (h : fs.Pairwise fun f g => f.1 < g.1) :
    (insertField k v fs).Pairwise fun f g => f.1 < g.1 := by
  induction fs with
  | nil => exact List.pairwise_singleton _ _
  | cons f fs ih =>
      obtain ⟨hfirst, hrest⟩ := List.pairwise_cons.mp h
      rw [insertField]
      split
      · next heq =>
          exact List.pairwise_cons.mpr ⟨fun g hg => heq ▸ hfirst g hg, hrest⟩
      · next hne =>
          split
          · next hlt =>
              refine List.pairwise_cons.mpr ⟨fun g hg => ?_, h⟩
              rcases List.mem_cons.mp hg with rfl | hg
              · exact hlt
              · exact lt_trans hlt (hfirst g hg)
          · next hge =>
              refine List.pairwise_cons.mpr ⟨fun g hg => ?_, ih hrest⟩
              rcases mem_insertField hg with rfl | hg
              · exact lt_of_le_of_ne (not_lt.mp hge) (Ne.symm hne)
              · exact hfirst g hg

/-- Fields in any order give an object with its fields in order. -/
theorem ofFields_eq (fs : Fields) :
    ∃ gs, ofFields fs = .obj gs ∧ gs.Pairwise fun f g => f.1 < g.1 := by
  have hall (acc : Fields) (hacc : acc.Pairwise fun f g => f.1 < g.1) :
      (fs.foldl (fun acc f => insertField f.1 f.2 acc) acc).Pairwise fun f g => f.1 < g.1 := by
    induction fs generalizing acc with
    | nil => exact hacc
    | cons f fs ih => exact ih _ (pairwise_insertField f.1 f.2 hacc)
  exact ⟨_, rfl, hall [] List.Pairwise.nil⟩

end Json

/-! ## Values that are read from one document only -/

namespace Scalar

variable {s : Scalar α} {write : α → Json}

/-- A scalar whose values are read only from what is written for them. -/
def Exact (s : Scalar α) (write : α → Json) : Prop := ∀ {j a}, s.read j = .ok a → j = write a

theorem exact_text : text.Exact .str := by
  intro j s h
  cases j <;> cases h
  rfl

theorem exact_bool : bool.Exact .bool := by
  intro j b h
  cases j <;> cases h
  rfl

theorem exact_integer (r : IntRange) (name : String) : (integer r name).Exact .int := by
  intro j i h
  cases j with
  | int i' =>
      simp only [integer] at h
      split at h
      · cases h
        rfl
      · cases h
  | _ => cases h

theorem Exact.optional (h : s.Exact write) {j : Json} {a : Option α} (hnull : j ≠ .null)
    (hread : s.optional.read j = .ok a) : some j = a.map write := by
  have hsome : s.optional.read j = (s.read j).map some := by
    cases j with
    | null => exact absurd rfl hnull
    | _ => rfl
  rw [hsome] at hread
  cases hs : s.read j with
  | error x =>
      rw [hs] at hread
      cases hread
  | ok b =>
      rw [hs] at hread
      cases hread
      exact congrArg some (h hs)

end Scalar

namespace Field

/-- A field that is there and not null is read as the value it is written for. -/
def Exact (f : Field α) (write : α → Option Json) : Prop :=
  ∀ {fs a}, f.ofFields fs = .ok a → Json.findField f.name fs ≠ some .null →
    Json.findField f.name fs = write a

variable {s : Scalar α} {write : α → Json}

theorem exact_required (name : String) (h : s.Exact write) :
    (required name s).Exact fun a => some (write a) := by
  intro fs a hread _
  rw [ofFields] at hread
  split at hread
  · next j hfind =>
      rw [hfind, h hread]
  · cases hread

theorem exact_optional (name : String) (h : s.Exact write) :
    (defaulted name s.optional none).Exact fun a => a.map write := by
  intro fs a hread hnull
  rw [ofFields] at hread
  split at hread
  · next j hfind =>
      have hj : j ≠ .null := fun hj => hnull (hfind.trans (congrArg some hj))
      rw [hfind]
      exact h.optional hj hread
  · next hfind =>
      cases hread
      exact hfind

theorem ofFields_insertField (f : Field α) {k : String} (h : f.name ≠ k) (v : Json) (fs : Json.Fields) :
    f.ofFields (Json.insertField k v fs) = f.ofFields fs := by
  rw [ofFields, ofFields, Json.findField_insertField_of_ne h]

end Field

/-! ## Records -/

section Record

variable {name k : String} {count : Nat} {faults : List (String × (Json → Option TypeError))}
  {take : Source → String → Except TypeError E} {e : E}

theorem ok_of_bind {ε : Type} {x : Except ε α} {f : α → Except ε β} {b : β} (h : x >>= f = .ok b) :
    ∃ a, x = .ok a ∧ f a = .ok b := by
  cases x with
  | error e => cases h
  | ok a => exact ⟨a, rfl, h⟩

theorem take_of_readRecord (h : readRecord name count faults take (.obj fs) = .ok e) :
    ∃ expected, take (.fields fs) expected = .ok e := by
  rw [readRecord] at h
  split at h
  · cases h
  · exact ⟨_, h⟩

theorem firstFault_insertField (hnone : faults.find? (·.1 == k) = none) (v : Json) (fs : Json.Fields) :
    firstFault faults (Json.insertField k v fs) = firstFault faults fs := by
  have hskip (v : Json) (fs : Json.Fields) :
      firstFault faults ((k, v) :: fs) = firstFault faults fs := by
    simp only [firstFault, List.findSome?_cons, hnone, Option.bind_none]
  induction fs with
  | nil => exact hskip v []
  | cons f fs ih =>
      obtain ⟨k', v'⟩ := f
      rw [Json.insertField]
      split
      · next heq =>
          subst heq
          rw [hskip, hskip]
      · split
        · exact hskip v _
        · simp only [firstFault, List.findSome?_cons] at ih ⊢
          rw [ih]

/-- A record is read without a look at a field that it does not have. -/
theorem readRecord_insertField (hnone : faults.find? (·.1 == k) = none) {v : Json}
    (htake : ∀ expected,
      take (.fields (Json.insertField k v fs)) expected = take (.fields fs) expected) :
    readRecord name count faults take (.obj (Json.insertField k v fs)) =
      readRecord name count faults take (.obj fs) := by
  rw [readRecord, readRecord]
  simp only [firstFault_insertField hnone, htake]

end Record

/-- Entities that are written as objects of some named fields, none of which is null. What is read
from a field, unless it is null, is written in it; other fields are not looked at. -/
structure Document.Recorded (E : Type) [Document E] (names : List String) : Prop where
  object : ∀ e : E, ∃ fs, Document.toJson e = .obj fs
  present : ∀ (e : E) (name : String), (Document.toJson e).get? name ≠ some .null
  named : ∀ (e : E) {name : String}, name ∉ names → (Document.toJson e).get? name = none
  keeps : ∀ {fs : Json.Fields} {e : E} {name : String}, Document.read (.obj fs) = .ok e →
    name ∈ names → Json.findField name fs ≠ some .null →
    (Document.toJson e).get? name = Json.findField name fs
  ignores : ∀ (fs : Json.Fields) (v : Json) {name : String}, name ∉ names →
    (Document.read (.obj (Json.insertField name v fs)) : Except TypeError E) =
      Document.read (.obj fs)

end WebResource
