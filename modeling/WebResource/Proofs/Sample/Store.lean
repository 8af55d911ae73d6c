import Mathlib.Data.List.Nodup
import WebResource.Proofs.Sample.Ownership

namespace WebResource.Sample

/-!
# Consistent stores

Every project and every note of a consistent store can be told apart by its identifier, and every note
belongs to a project of the store. No operation takes this from the store, as long as an identifier that
it makes is a new one.
-/

/-! ## Rows with identifiers -/

/-- All rows have identifiers, and no two the same. -/
structure Identified {α : Type} (id : α → Option Uuid) (rows : List α) : Prop where
  present : ∀ a ∈ rows, (id a).isSome = true
  distinct : (rows.map id).Nodup

namespace Identified

variable {α : Type} {id : α → Option Uuid} {rows rows' : List α} {a : α} {u : Uuid}

theorem nil : Identified id [] := ⟨by simp, List.nodup_nil⟩

theorem sublist (h : Identified id rows) (hsub : rows'.Sublist rows) : Identified id rows' :=
  ⟨fun a ha => h.present a (hsub.subset ha), h.distinct.sublist (hsub.map id)⟩

theorem append (h : Identified id rows) (ha : id a = some u) (hnew : ∀ b ∈ rows, id b ≠ some u) :
    Identified id (rows ++ [a]) where
  present b hb := by
    rcases List.mem_append.mp hb with hb | hb
    · exact h.present b hb
    · rw [List.mem_singleton.mp hb, ha]
      rfl
  distinct := by
    rw [List.map_append, List.nodup_append]
    refine ⟨h.distinct, List.nodup_singleton _, ?_⟩
    intro i hi j hj
    obtain ⟨b, hb, rfl⟩ := List.mem_map.mp hi
    rw [List.mem_singleton.mp hj, ha]
    exact hnew b hb

theorem congr (h : Identified id rows) (hmap : rows'.map id = rows.map id) : Identified id rows' where
  present a ha := by
    have hmem : id a ∈ rows.map id := hmap ▸ List.mem_map_of_mem ha
    obtain ⟨b, hb, hba⟩ := List.mem_map.mp hmem
    exact hba ▸ h.present b hb
  distinct := hmap ▸ h.distinct

end Identified

/-! ## Projects and notes that may be stored -/

/-- The name of the project is not blank. -/
def Project.IsNamed (p : Project) : Prop := ∃ c ∈ p.name.toList, Text.isBlank c = false

def Note.IsShort (n : Note) : Prop := n.text.utf8ByteSize ≤ Note.maxBytes

theorem Project.invalid_eq_none_iff {p : Project} : p.invalid = none ↔ p.IsNamed := by
  simp [Project.invalid, Text.hasInk, Project.IsNamed]

theorem Note.fits_of_ofDocument {project : Uuid} {d : NoteDocument} {n : Note}
    (h : Note.ofDocument project d = .ok n) : n.project = project ∧ n.IsShort := by
  unfold Note.ofDocument at h
  split at h
  · cases h
  · next hshort =>
      cases h
      exact ⟨rfl, Nat.le_of_not_lt hshort⟩

namespace Store

variable {s : Store} {fresh : Nat → Uuid} {p : Project} {n : Note} {project i : Uuid}

/-- The identifier is in use. -/
def Uses (s : Store) (i : Uuid) : Prop := (∃ p ∈ s.projects, p.id = some i) ∨ ∃ n ∈ s.notes, n.id = some i

/-- An identifier that a step makes is not in use. -/
def DrawsNew (fresh : Nat → Uuid) (step : Store → Store) (s : Store) : Prop :=
  (step s).drawn ≠ s.drawn → ¬s.Uses (fresh s.drawn)

structure Consistent (s : Store) : Prop where
  projects : Identified Project.id s.projects
  notes : Identified Note.id s.notes
  owned : ∀ n ∈ s.notes, ∃ p ∈ s.projects, p.id = some n.project
  named : ∀ p ∈ s.projects, p.IsNamed
  short : ∀ n ∈ s.notes, n.IsShort

theorem consistent_empty : empty.Consistent := ⟨.nil, .nil, by simp [empty], by simp [empty], by simp [empty]⟩

namespace Consistent

/-- How many identifiers have been made does not matter. -/
theorem drawn (h : s.Consistent) (k : Nat) : Consistent { s with drawn := k } :=
  ⟨h.projects, h.notes, h.owned, h.named, h.short⟩

/-! ## Operations on projects -/

theorem addProject (h : s.Consistent) (hid : p.id = some i) (hnew : ∀ q ∈ s.projects, q.id ≠ some i)
    (hp : p.IsNamed) : Consistent { s with projects := s.projects ++ [p] } where
  projects := h.projects.append hid hnew
  notes := h.notes
  owned := Owned.addProject h.owned p s.drawn
  named := by
    simp only [List.forall_mem_append, List.forall_mem_singleton]
    exact ⟨h.named, hp⟩
  short := h.short

theorem createProject (h : s.Consistent) (hp : p.IsNamed)
    (hnew : DrawsNew fresh (fun s => (s.createProject fresh p).2) s) :
    (s.createProject fresh p).2.Consistent := by
  unfold DrawsNew at hnew
  cases hid : p.id with
  | some i =>
      simp only [Store.createProject, hid]
      split
      · exact h
      · next hmissing =>
          refine h.addProject hid (fun q hq hqi => hmissing ?_) hp
          exact hasProject_iff.mpr ⟨q, hq, hqi⟩
  | none =>
      simp only [Store.createProject, hid] at hnew ⊢
      refine (h.addProject (p := { p with id := some (fresh s.drawn) }) rfl ?_ hp).drawn _
      exact fun q hq hqi => hnew (Nat.succ_ne_self _) (Or.inl ⟨q, hq, hqi⟩)

/-- A project gives way to one with its identifier, so its notes are those of the new one. -/
theorem updateProject (h : s.Consistent) (hp : p.IsNamed) : (s.updateProject p).2.Consistent := by
  have howned := Owned.updateProject h.owned p
  unfold Store.updateProject at howned ⊢
  split
  · next projects hreplaced =>
      rw [hreplaced] at howned
      have hids := projectIds_of_replaceFirst hreplaced
      refine ⟨h.projects.congr hids, h.notes, howned, fun q hq => ?_, h.short⟩
      rcases Repository.mem_replaceFirst hreplaced hq with rfl | hq
      · exact hp
      · exact h.named q hq
  · exact h

theorem deleteProject (h : s.Consistent) (i : Uuid) : (s.deleteProject i).2.Consistent := by
  have howned := Owned.deleteProject h.owned i
  unfold Store.deleteProject at howned ⊢
  split
  · next hfound =>
      rw [if_pos hfound] at howned
      exact ⟨h.projects.sublist List.filter_sublist, h.notes.sublist List.filter_sublist, howned,
        fun p hp => h.named p (List.mem_filter.mp hp).1, fun n hn => h.short n (List.mem_filter.mp hn).1⟩
  · exact h

theorem deleteProjects (s : Store) : s.deleteProjects.Consistent :=
  ⟨.nil, .nil, by simp [Store.deleteProjects], by simp [Store.deleteProjects],
    by simp [Store.deleteProjects]⟩

/-! ## Operations on notes -/

theorem addNote (h : s.Consistent) (hid : n.id = some i) (hnew : ∀ m ∈ s.notes, m.id ≠ some i)
    (howned : ∃ p ∈ s.projects, p.id = some n.project) (hn : n.IsShort) :
    Consistent { s with notes := s.notes ++ [n] } where
  projects := h.projects
  notes := h.notes.append hid hnew
  owned := Owned.addNote h.owned howned s.drawn
  named := h.named
  short := by
    simp only [List.forall_mem_append, List.forall_mem_singleton]
    exact ⟨h.short, hn⟩

theorem createNote (h : s.Consistent) (hn : n.IsShort)
    (hnew : DrawsNew fresh (fun s => (s.createNote fresh project n).2) s) :
    (s.createNote fresh project n).2.Consistent := by
  unfold DrawsNew at hnew
  by_cases hproject : n.project = project
  · subst hproject
    cases hfound : s.hasProject n.project with
    | false => simpa [Store.createNote, hfound] using h
    | true =>
        -- The project is looked up in the same step, so it has not been deleted since.
        have howned := hasProject_iff.mp hfound
        cases hid : n.id with
        | some i =>
            simp only [Store.createNote, ne_eq, not_true, if_false, hfound, Bool.not_true,
              Bool.false_eq_true, hid]
            split
            · exact h
            · next hmissing =>
                refine h.addNote hid (fun m hm hmi => hmissing ?_) howned hn
                exact List.any_eq_true.mpr ⟨m, hm, beq_iff_eq.mpr hmi⟩
        | none =>
            simp only [Store.createNote, ne_eq, not_true, if_false, hfound, Bool.not_true,
              Bool.false_eq_true, hid] at hnew ⊢
            refine (h.addNote (n := { n with id := some (fresh s.drawn) }) rfl ?_ howned hn).drawn _
            exact fun m hm hmi => hnew (Nat.succ_ne_self _) (Or.inr ⟨m, hm, hmi⟩)
  · simpa [Store.createNote, hproject] using h

/-- A note gives way only to a note of its project. -/
theorem updateNote (h : s.Consistent) (hproject : n.project = project) (hn : n.IsShort) :
    (s.updateNote project n).2.Consistent := by
  -- The new note has the owner of the note that it replaces.
  have howned : (s.updateNote project n).2.Owned := (owned_updateNote_iff h.owned).mpr (by
    rintro ⟨m, hm, hmproject, -, -⟩
    rw [hproject, ← hmproject]
    exact hasProject_iff.mpr (h.owned m hm))
  unfold Store.updateNote at howned ⊢
  split
  · next notes hreplaced =>
      rw [hreplaced] at howned
      have hids : notes.map Note.id = s.notes.map Note.id := by
        refine Repository.map_replaceFirst hreplaced fun m _ hm => ?_
        simp only [Bool.and_eq_true, beq_iff_eq] at hm
        exact hm.2
      refine ⟨h.projects, h.notes.congr hids, howned, h.named, fun m hm => ?_⟩
      rcases Repository.mem_replaceFirst hreplaced hm with rfl | hm
      · exact hn
      · exact h.short m hm
  · exact h

theorem deleteNote (h : s.Consistent) (project i : Uuid) : (s.deleteNote project i).2.Consistent := by
  have howned := Owned.deleteNote h.owned project i
  unfold Store.deleteNote at howned ⊢
  split
  · next hfound =>
      rw [if_pos hfound] at howned
      exact ⟨h.projects, h.notes.sublist List.filter_sublist, howned, h.named,
        fun n hn => h.short n (List.mem_filter.mp hn).1⟩
  · exact h

end Consistent

end Store

end WebResource.Sample
