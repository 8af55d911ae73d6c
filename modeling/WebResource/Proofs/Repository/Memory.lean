import Mathlib.Data.List.Induction
import Mathlib.Data.List.Nodup
import WebResource.Proofs.Repository
import WebResource.Sample.Entities

namespace WebResource.Memory

/-!
# Identifiers of entities in memory

An operation that fails changes nothing. One that succeeds keeps entities apart by their identifiers,
unless it makes an identifier that an entity has already: a creation looks for the identifier of an entity
that comes with one, but not for one that it makes itself. If the sequence of identifiers does not repeat,
what it can meet is only an identifier that a caller has chosen.
-/

variable {E I : Type} [DecidableEq I] {k : Identity E I} {m : Memory E} {e created : E} {i : I}

/-! ## Results and what is stored -/

theorem create_of_error {x : StorageError} (h : (create k e m).1 = .error x) : (create k e m).2 = m := by
  unfold create at h ⊢
  split
  · next i hid =>
      simp only [hid] at h
      split
      · rfl
      · next htaken =>
          rw [if_neg htaken] at h
          cases h
  · next hid =>
      simp only [hid] at h
      cases h

theorem entities_of_create (h : (create k e m).1 = .ok created) :
    (create k e m).2.entities = m.entities ++ [created] := by
  unfold create at h ⊢
  split
  · next i hid =>
      simp only [hid] at h
      split
      · next htaken =>
          rw [if_pos htaken] at h
          cases h
      · next htaken =>
          rw [if_neg htaken] at h
          cases h
          rfl
  · next hid =>
      simp only [hid] at h
      cases h
      rfl

theorem update_of_error {x : StorageError} (h : (update k e m).1 = .error x) : (update k e m).2 = m := by
  unfold update at h ⊢
  split
  · rfl
  · next hid =>
      simp only [hid] at h
      split
      · next hreplaced =>
          simp only [hreplaced] at h
          cases h
      · rfl

theorem delete_of_error {x : StorageError} (h : (delete k i m).1 = .error x) : (delete k i m).2 = m := by
  unfold delete at h ⊢
  simp only at h ⊢
  split
  · rfl
  · next hlength =>
      rw [if_neg hlength] at h
      cases h

/-! ## Identifiers -/

/-- The identifiers of what is stored, in the order of its creation. -/
def identifiers (k : Identity E I) (m : Memory E) : List I := m.entities.filterMap k.id

/-- No two entities have the same identifier. -/
def Distinct (k : Identity E I) (m : Memory E) : Prop := (m.identifiers k).Nodup

omit [DecidableEq I] in
theorem mem_identifiers_iff : i ∈ m.identifiers k ↔ ∃ e ∈ m.entities, k.id e = some i :=
  List.mem_filterMap

theorem identifiers_of_create (h : (create k e m).1 = .ok created) :
    (create k e m).2.identifiers k = m.identifiers k ++ (k.id created).toList := by
  rw [identifiers, entities_of_create h, List.filterMap_append]
  cases hid : k.id created <;> simp [identifiers, hid]

/-- An entity gives way to one with its identifier. -/
theorem identifiers_update (k : Identity E I) (e : E) (m : Memory E) :
    (update k e m).2.identifiers k = m.identifiers k := by
  unfold update
  cases hid : k.id e with
  | none => rfl
  | some i =>
      simp only
      cases hreplaced : Repository.replaceFirst (hasId k i) e m.entities with
      | none => rfl
      | some es =>
          have hids : es.map k.id = m.entities.map k.id := by
            refine Repository.map_replaceFirst hreplaced fun x _ hx => ?_
            rw [hasId, beq_iff_eq] at hx
            rw [hx, hid]
          have hsame := congrArg (List.filterMap id) hids
          rwa [List.filterMap_map, List.filterMap_map] at hsame

theorem identifiers_delete (k : Identity E I) (i : I) (m : Memory E) :
    ((delete k i m).2.identifiers k).Sublist (m.identifiers k) := by
  unfold delete
  simp only
  split
  · exact List.Sublist.refl _
  · exact List.filter_sublist.filterMap k.id

/-- An identifier that an entity comes with is not in use where the entity is stored. -/
theorem notMem_identifiers_of_create (h : (create k e m).1 = .ok created) (hid : k.id e = some i) :
    created = e ∧ i ∉ m.identifiers k := by
  unfold create at h
  simp only [hid] at h
  split at h
  · cases h
  · next hfree =>
      refine ⟨(Except.ok.inj h).symm, fun hmem => hfree ?_⟩
      obtain ⟨e', he', hid'⟩ := mem_identifiers_iff.mp hmem
      exact List.any_eq_true.mpr ⟨e', he', beq_iff_eq.mpr hid'⟩

theorem create_of_none (h : k.id e = none) (m : Memory E) :
    (create k e m).1 = .ok (k.setId (k.fresh m.sequence) e) := by
  unfold create
  simp only [h]

/-- The identifiers behind a creation: those before it, and one that the entity comes with or is given. -/
theorem mem_identifiers_create (h : i ∈ (create k e m).2.identifiers k) :
    i ∈ m.identifiers k ∨ k.id e = some i ∨
      (k.id e = none ∧ k.id (k.setId (k.fresh m.sequence) e) = some i) := by
  cases hcreate : (create k e m).1 with
  | error x =>
      rw [create_of_error hcreate] at h
      exact Or.inl h
  | ok created =>
      rw [identifiers_of_create hcreate] at h
      rcases List.mem_append.mp h with h | h
      · exact Or.inl h
      have hid : k.id created = some i := Option.mem_toList.mp h
      cases hgiven : k.id e with
      | some j =>
          obtain ⟨rfl, -⟩ := notMem_identifiers_of_create hcreate hgiven
          exact Or.inr (Or.inl (hgiven.symm.trans hid))
      | none =>
          obtain rfl := Except.ok.inj ((create_of_none hgiven m).symm.trans hcreate)
          exact Or.inr (Or.inr ⟨rfl, hid⟩)

/-- The entity would be given an identifier that is in use. -/
def Collides (k : Identity E I) (m : Memory E) (e : E) : Prop :=
  k.id e = none ∧ ∃ i ∈ m.identifiers k, k.id (k.setId (k.fresh m.sequence) e) = some i

theorem distinct_create (h : m.Distinct k) (he : ¬Collides k m e) : (create k e m).2.Distinct k := by
  cases hcreate : (create k e m).1 with
  | error x => rwa [create_of_error hcreate]
  | ok created =>
      rw [Distinct, identifiers_of_create hcreate]
      cases hid : k.id created with
      | none =>
          rw [Option.toList_none, List.append_nil]
          exact h
      | some i =>
          -- The identifier has been looked for, or made.
          have hfree : i ∉ m.identifiers k := by
            cases hgiven : k.id e with
            | some j =>
                obtain ⟨rfl, hfree⟩ := notMem_identifiers_of_create hcreate hgiven
                obtain rfl := Option.some.inj (hgiven.symm.trans hid)
                exact hfree
            | none =>
                obtain rfl := Except.ok.inj ((create_of_none hgiven m).symm.trans hcreate)
                exact fun hmem => he ⟨hgiven, i, hmem, hid⟩
          exact List.Nodup.append h (List.nodup_singleton i) (List.disjoint_singleton.mpr hfree)

theorem not_distinct_of_collides (he : Collides k m e) : ¬(create k e m).2.Distinct k := by
  obtain ⟨hgiven, i, hmem, hid⟩ := he
  rw [Distinct, identifiers_of_create (create_of_none hgiven m), hid]
  intro hnodup
  exact List.disjoint_of_nodup_append hnodup hmem (List.mem_singleton_self i)

/-- What has been created is found by its identifier, where no other entity has that. -/
theorem find_of_create (h : (create k e m).1 = .ok created) (hid : k.id created = some i)
    (hdistinct : (create k e m).2.Distinct k) : (create k e m).2.find k i = some created := by
  rw [Distinct, identifiers_of_create h, hid] at hdistinct
  have hfree : i ∉ m.identifiers k := fun hmem =>
    List.disjoint_of_nodup_append hdistinct hmem (List.mem_singleton_self i)
  have hnone : m.entities.find? (hasId k i) = none := by
    rw [List.find?_eq_none]
    intro e' he' hid'
    exact hfree (mem_identifiers_iff.mpr ⟨e', he', beq_iff_eq.mp hid'⟩)
  rw [find, entities_of_create h, List.find?_append, hnone]
  simp [hasId, hid]

/-! ## Histories -/

/-- An operation that may change what is stored. -/
inductive Change (E I : Type) where
  | create (e : E)
  | update (e : E)
  | delete (i : I)
  | deleteAll

def Change.apply (k : Identity E I) (m : Memory E) : Change E I → Memory E
  | create e => (Memory.create k e m).2
  | update e => (Memory.update k e m).2
  | delete i => (Memory.delete k i m).2
  | deleteAll => m.deleteAll

/-- What is stored after some changes, where nothing was stored before. -/
def after (k : Identity E I) (changes : List (Change E I)) : Memory E := changes.foldl (Change.apply k) .empty

theorem after_concat (k : Identity E I) (changes : List (Change E I)) (x : Change E I) :
    after k (changes ++ [x]) = x.apply k (after k changes) := by
  rw [after, List.foldl_concat]
  rfl

variable {changes front : List (Change E I)}

/-- No creation on the way makes an identifier that is in use. -/
def Uncontested (k : Identity E I) (changes : List (Change E I)) : Prop :=
  ∀ front e, front ++ [.create e] <+: changes → ¬Collides k (after k front) e

theorem distinct_apply {x : Change E I} (h : m.Distinct k) (hx : ∀ e, x = .create e → ¬Collides k m e) :
    (x.apply k m).Distinct k := by
  cases x with
  | create e => exact distinct_create h (hx e rfl)
  | update e =>
      rw [Distinct, Change.apply, identifiers_update]
      exact h
  | delete i => exact h.sublist (identifiers_delete k i m)
  | deleteAll => exact List.nodup_nil

theorem distinct_after (h : Uncontested k changes) : (after k changes).Distinct k := by
  induction changes using List.reverseRecOn with
  | nil => exact List.nodup_nil
  | append_singleton changes x ih =>
      rw [after_concat]
      refine distinct_apply (ih fun front e hfront => ?_) ?_
      · exact h front e (hfront.trans (List.prefix_append _ _))
      · rintro e rfl
        exact h changes e List.prefix_rfl

/-! ## Where identifiers come from -/

/-- An identifier that a caller has chosen for an entity. -/
def Chosen (k : Identity E I) (changes : List (Change E I)) (i : I) : Prop :=
  ∃ e, .create e ∈ changes ∧ k.id e = some i

omit [DecidableEq I] in
theorem Chosen.append (h : Chosen k changes i) (more : List (Change E I)) : Chosen k (changes ++ more) i := by
  obtain ⟨e, he, hid⟩ := h
  exact ⟨e, List.mem_append_left _ he, hid⟩

theorem sequence_create_of_none (h : k.id e = none) (m : Memory E) :
    (create k e m).2.sequence = m.sequence + 1 := by
  unfold create
  simp only [h]

theorem sequence_le_create (k : Identity E I) (e : E) (m : Memory E) :
    m.sequence ≤ (create k e m).2.sequence := by
  unfold create
  split
  · split <;> exact Nat.le_refl _
  · exact Nat.le_succ _

theorem sequence_update (k : Identity E I) (e : E) (m : Memory E) :
    (update k e m).2.sequence = m.sequence := by
  unfold update
  split
  · rfl
  · split <;> rfl

theorem sequence_delete (k : Identity E I) (i : I) (m : Memory E) :
    (delete k i m).2.sequence = m.sequence := by
  unfold delete
  simp only
  split <;> rfl

/-- An entity without an identifier gets the one that is made for it. -/
def Assigns (k : Identity E I) : Prop := ∀ i e, k.id e = none → k.id (k.setId i e) = some i

/-- The identifiers in use have been chosen by callers, or made before. -/
theorem chosen_or_made (hset : Assigns k) (h : i ∈ (after k changes).identifiers k) :
    Chosen k changes i ∨ ∃ n < (after k changes).sequence, k.fresh n = i := by
  induction changes using List.reverseRecOn with
  | nil => cases h
  | append_singleton changes x ih =>
      rw [after_concat] at h ⊢
      have hearlier (hmem : i ∈ (after k changes).identifiers k)
          (hle : (after k changes).sequence ≤ (x.apply k (after k changes)).sequence) :
          Chosen k (changes ++ [x]) i ∨ ∃ n < (x.apply k (after k changes)).sequence, k.fresh n = i := by
        rcases ih hmem with hchosen | ⟨n, hn, hmade⟩
        · exact Or.inl (hchosen.append _)
        · exact Or.inr ⟨n, Nat.lt_of_lt_of_le hn hle, hmade⟩
      cases x with
      | update e =>
          rw [Change.apply, identifiers_update] at h
          exact hearlier h (Nat.le_of_eq (sequence_update k e _).symm)
      | delete j =>
          exact hearlier ((identifiers_delete k j _).subset h) (Nat.le_of_eq (sequence_delete k j _).symm)
      | deleteAll => cases h
      | create e =>
          have hle := sequence_le_create k e (after k changes)
          rcases mem_identifiers_create h with hmem | hgiven | ⟨hgiven, hid⟩
          · exact hearlier hmem hle
          · exact Or.inl ⟨e, List.mem_append_right _ List.mem_cons_self, hgiven⟩
          · obtain rfl := Option.some.inj ((hset _ e hgiven).symm.trans hid)
            refine Or.inr ⟨(after k changes).sequence, ?_, rfl⟩
            rw [Change.apply, sequence_create_of_none hgiven]
            exact Nat.lt_succ_self _

/-- Whatever is created, updated and deleted, no two entities ever have the same identifier, and each
creation is followed by its entity when that is looked for, if and only if no creation makes an identifier
that is in use. A sequence that does not repeat itself makes one only if a caller has chosen it before. -/
theorem distinct_iff_uncontested (k : Identity E I) (changes : List (Change E I)) :
    (((∀ front, front <+: changes → (after k front).Distinct k) ∧
        ∀ front e created i, front ++ [.create e] <+: changes →
          (create k e (after k front)).1 = .ok created → k.id created = some i →
            (after k (front ++ [.create e])).find k i = some created) ↔
      Uncontested k changes) ∧
    (Function.Injective k.fresh → Assigns k → ∀ front e, front ++ [.create e] <+: changes →
      Collides k (after k front) e → Chosen k front (k.fresh (after k front).sequence)) := by
  refine ⟨⟨?_, ?_⟩, ?_⟩
  · rintro ⟨hdistinct, -⟩ front e hfront hcollides
    have hafter := hdistinct _ hfront
    rw [after_concat] at hafter
    exact not_distinct_of_collides hcollides hafter
  · intro h
    have hdistinct (front : List (Change E I)) (hfront : front <+: changes) : (after k front).Distinct k :=
      distinct_after fun earlier e hearlier => h earlier e (hearlier.trans hfront)
    refine ⟨hdistinct, fun front e created i hfront hcreate hid => ?_⟩
    have hafter := hdistinct _ hfront
    rw [after_concat] at hafter ⊢
    exact find_of_create hcreate hid hafter
  · rintro hfresh hset front e - ⟨hgiven, i, hmem, hid⟩
    obtain rfl := Option.some.inj ((hset _ e hgiven).symm.trans hid)
    rcases chosen_or_made hset hmem with hchosen | ⟨n, hn, hmade⟩
    · exact hchosen
    · exact absurd (hfresh hmade) (Nat.ne_of_lt hn)

section Taken

open Sample (Counter)

/-- A counter with the first identifier of the sequence, and one without an identifier. -/
def takenFirst : List (Change Counter Int) :=
  [.create ⟨some 10, "a", 0, false⟩, .create ⟨none, "b", 0, false⟩]

theorem distinct_iff_uncontested_taken :
    Function.Injective Counter.identity.fresh ∧ Assigns Counter.identity ∧
      Chosen Counter.identity [.create ⟨some 10, "a", 0, false⟩] 10 ∧
      ¬(after Counter.identity takenFirst).Distinct Counter.identity := by
  have hfresh : Function.Injective Counter.identity.fresh := by
    intro a b hab
    change (a : Int) * 10 = (b : Int) * 10 at hab
    omega
  have hset : Assigns Counter.identity := fun _ _ _ => rfl
  have hcollides : Collides Counter.identity
      (after Counter.identity [.create ⟨some 10, "a", 0, false⟩]) ⟨none, "b", 0, false⟩ :=
    ⟨rfl, 10, List.mem_cons_self, rfl⟩
  obtain ⟨-, hchosen⟩ := distinct_iff_uncontested Counter.identity takenFirst
  exact ⟨hfresh, hset, hchosen hfresh hset _ _ List.prefix_rfl hcollides, not_distinct_of_collides hcollides⟩

end Taken

end WebResource.Memory
