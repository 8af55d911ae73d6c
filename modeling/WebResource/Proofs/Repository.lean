import WebResource.Repository.Basic

namespace WebResource.Repository

/-!
# Replacing one of many

The first element that satisfies a test gives way to another one; the others stay where they are.
-/

variable {α β : Type} {p : α → Bool} {a b : α} {as bs : List α}

theorem replaceFirst_eq_none_iff (a : α) : replaceFirst p a as = none ↔ ∀ x ∈ as, p x = false := by
  induction as with
  | nil => simp [replaceFirst]
  | cons x as ih =>
      rw [replaceFirst]
      cases hx : p x <;> simp [hx, ih]

/-- Where the element was replaced. -/
theorem exists_of_replaceFirst (h : replaceFirst p a as = some bs) :
    ∃ front x back, as = front ++ x :: back ∧ bs = front ++ a :: back ∧ p x = true := by
  induction as generalizing bs with
  | nil => cases h
  | cons y as ih =>
      rw [replaceFirst] at h
      split at h
      · next hy =>
          cases h
          exact ⟨[], y, as, rfl, rfl, hy⟩
      · obtain ⟨cs, hcs, rfl⟩ := Option.map_eq_some_iff.mp h
        obtain ⟨front, x, back, rfl, rfl, hx⟩ := ih hcs
        exact ⟨y :: front, x, back, rfl, rfl, hx⟩

theorem mem_replaceFirst (h : replaceFirst p a as = some bs) (hb : b ∈ bs) : b = a ∨ b ∈ as := by
  obtain ⟨front, x, back, rfl, rfl, -⟩ := exists_of_replaceFirst h
  rcases List.mem_append.mp hb with hb | hb
  · exact Or.inr (List.mem_append_left _ hb)
  · rcases List.mem_cons.mp hb with rfl | hb
    · exact Or.inl rfl
    · exact Or.inr (List.mem_append_right _ (List.mem_cons_of_mem x hb))

/-- What the replaced elements have in common with the new one stays as it was. -/
theorem map_replaceFirst {f : α → β} (h : replaceFirst p a as = some bs)
    (hf : ∀ x ∈ as, p x = true → f x = f a) : bs.map f = as.map f := by
  obtain ⟨front, x, back, rfl, rfl, hx⟩ := exists_of_replaceFirst h
  have hsame : f x = f a := hf x (by simp) hx
  simp [hsame]

end WebResource.Repository
