import Mathlib.Data.List.DropRight
import WebResource.Text.Split

namespace WebResource.Text

/-!
# Cutting and joining

A separator between two parts is where they are cut, so parts without the separator come back as
they were joined.
-/

variable {α : Type} [DecidableEq α] {sep : α}

theorem splitOn_append_cons (as bs : List α) :
    splitOn sep (as ++ sep :: bs) = splitOn sep as ++ splitOn sep bs := by
  induction as with
  | nil => simp [splitOn]
  | cons a as ih =>
      by_cases ha : a = sep
      · simp [splitOn, ha, ih]
      · cases hs : splitOn sep as with
        | nil => exact absurd hs (splitOn_ne_nil sep as)
        | cons p ps => simp [splitOn, ha, ih, hs]

/-- The first piece ends at the first separator. -/
theorem splitOn_eq_takeWhile (as : List α) :
    splitOn sep as = as.takeWhile (· != sep) :: (splitOn sep as).tail := by
  induction as with
  | nil => rfl
  | cons a as ih =>
      by_cases ha : a = sep
      · simp [splitOn, ha]
      · have htake : (a :: as).takeWhile (· != sep) = a :: as.takeWhile (· != sep) :=
          List.takeWhile_cons_of_pos (bne_iff_ne.mpr ha)
        rw [splitOn, if_neg ha, ih, htake]
        rfl

theorem tail_splitOn_append {as : List α} (h : sep ∉ as) (bs : List α) :
    (splitOn sep (as ++ bs)).tail = (splitOn sep bs).tail := by
  induction as with
  | nil => rfl
  | cons a as ih =>
      have ha : a ≠ sep := fun hs => h (hs ▸ List.mem_cons_self)
      have has := ih fun hs => h (List.mem_cons_of_mem a hs)
      rw [List.cons_append, splitOn, if_neg ha, splitOn_eq_takeWhile (as ++ bs)]
      exact has

theorem splitOn_of_notMem {as : List α} (h : sep ∉ as) : splitOn sep as = [as] := by
  induction as with
  | nil => rfl
  | cons a as ih =>
      have ha : a ≠ sep := fun hs => h (hs ▸ List.mem_cons_self)
      have has : sep ∉ as := fun hs => h (List.mem_cons_of_mem a hs)
      simp [splitOn, ha, ih has]

theorem notMem_of_mem_splitOn {as p : List α} (h : p ∈ splitOn sep as) : sep ∉ p := by
  induction as generalizing p with
  | nil =>
      rw [splitOn, List.mem_singleton] at h
      exact h ▸ List.not_mem_nil
  | cons a as ih =>
      by_cases ha : a = sep
      · rw [splitOn, if_pos ha] at h
        rcases List.mem_cons.mp h with rfl | h
        · exact List.not_mem_nil
        · exact ih h
      · cases hs : splitOn sep as with
        | nil => exact absurd hs (splitOn_ne_nil sep as)
        | cons q qs =>
            simp only [splitOn, if_neg ha, hs] at h
            rcases List.mem_cons.mp h with rfl | h
            · have hq := ih (hs ▸ List.mem_cons_self)
              exact fun hm => (List.mem_cons.mp hm).elim (fun h => ha h.symm) hq
            · exact ih (hs ▸ List.mem_cons_of_mem q h)

theorem splitOn_joinWith {ps : List (List α)} (hne : ps ≠ []) (h : ∀ p ∈ ps, sep ∉ p) :
    splitOn sep (joinWith sep ps) = ps := by
  induction ps with
  | nil => exact absurd rfl hne
  | cons p ps ih =>
      have hp := splitOn_of_notMem (h p List.mem_cons_self)
      cases ps with
      | nil => exact hp
      | cons q qs =>
          have hqs := ih (List.cons_ne_nil q qs) fun r hr => h r (List.mem_cons_of_mem p hr)
          rw [joinWith, splitOn_append_cons, hp, hqs, List.singleton_append]

omit [DecidableEq α] in
theorem mem_joinWith {ps : List (List α)} {a : α} (h : a ∈ joinWith sep ps) :
    a = sep ∨ ∃ p ∈ ps, a ∈ p := by
  induction ps with
  | nil => cases h
  | cons p ps ih =>
      cases ps with
      | nil => exact Or.inr ⟨p, List.mem_cons_self, h⟩
      | cons q qs =>
          rcases List.mem_append.mp h with h | h
          · exact Or.inr ⟨p, List.mem_cons_self, h⟩
          · rcases List.mem_cons.mp h with h | h
            · exact Or.inl h
            · exact (ih h).imp_right fun ⟨r, hr, ha⟩ => ⟨r, List.mem_cons_of_mem p hr, ha⟩

theorem mem_of_mem_splitOn {as p : List α} {a : α} (hp : p ∈ splitOn sep as) (ha : a ∈ p) : a ∈ as := by
  induction as generalizing p with
  | nil =>
      rw [splitOn, List.mem_singleton] at hp
      exact hp ▸ ha
  | cons b as ih =>
      by_cases hb : b = sep
      · rw [splitOn, if_pos hb] at hp
        rcases List.mem_cons.mp hp with rfl | hp
        · cases ha
        · exact List.mem_cons_of_mem b (ih hp ha)
      · cases hs : splitOn sep as with
        | nil => exact absurd hs (splitOn_ne_nil sep as)
        | cons q qs =>
            simp only [splitOn, if_neg hb, hs] at hp
            rcases List.mem_cons.mp hp with rfl | hp
            · rcases List.mem_cons.mp ha with rfl | ha
              · exact List.mem_cons_self
              · exact List.mem_cons_of_mem b (ih (hs ▸ List.mem_cons_self) ha)
            · exact List.mem_cons_of_mem b (ih (hs ▸ List.mem_cons_of_mem q hp) ha)

theorem cut_append_cons {as : List α} (h : sep ∉ as) (bs : List α) :
    cut sep (as ++ sep :: bs) = some (as, bs) := by
  induction as with
  | nil => simp [cut]
  | cons a as ih =>
      have ha : a ≠ sep := fun hs => h (hs ▸ List.mem_cons_self)
      have has := ih fun hs => h (List.mem_cons_of_mem a hs)
      simp [cut, ha, has]

theorem cutLast_append_cons {bs : List α} (h : sep ∉ bs) (as : List α) :
    cutLast sep (as ++ sep :: bs) = some (as, bs) := by
  have hreverse : (as ++ sep :: bs).reverse = bs.reverse ++ sep :: as.reverse := by simp
  rw [cutLast, hreverse, cut_append_cons (fun hmem => h (List.mem_reverse.mp hmem)),
    Option.map_some]
  simp only [List.reverse_reverse]

/-! ## The part before a separator -/

theorem cut_eq_none_iff {as : List α} : cut sep as = none ↔ sep ∉ as := by
  induction as with
  | nil => simp [cut]
  | cons a as ih =>
      by_cases ha : a = sep
      · simp [cut, ha]
      · simp [cut, ha, ih, Ne.symm ha]

theorem notMem_of_cut {as l r : List α} (h : cut sep as = some (l, r)) : sep ∉ l := by
  induction as generalizing l r with
  | nil => cases h
  | cons a as ih =>
      rw [cut] at h
      split at h
      · cases h
        exact List.not_mem_nil
      · next ha =>
          obtain ⟨⟨l', r'⟩, hcut, hlr⟩ := Option.map_eq_some_iff.mp h
          cases hlr
          intro hmem
          rcases List.mem_cons.mp hmem with rfl | hmem
          · exact ha rfl
          · exact ih hcut hmem

theorem eq_of_cut {as l r : List α} (h : cut sep as = some (l, r)) : as = l ++ sep :: r := by
  induction as generalizing l r with
  | nil => cases h
  | cons a as ih =>
      rw [cut] at h
      split at h
      · next ha =>
          cases h
          rw [ha, List.nil_append]
      · obtain ⟨⟨l', r'⟩, hcut, hlr⟩ := Option.map_eq_some_iff.mp h
        cases hlr
        rw [ih hcut, List.cons_append]

theorem toList_before (c : Char) (s : String) :
    (before c s).toList = s.toList.takeWhile (· != c) := by
  have hstop {l : List Char} (hl : c ∉ l) : ∀ d ∈ l, (d != c) = true := fun d hd =>
    bne_iff_ne.mpr fun h => hl (h ▸ hd)
  unfold before
  split
  · next l r hcut =>
      rw [String.toList_ofList, eq_of_cut hcut, List.takeWhile_append_of_pos (hstop (notMem_of_cut hcut)),
        List.takeWhile_cons_of_neg (by simp), List.append_nil]
  · next hcut =>
      have hall := hstop (cut_eq_none_iff.mp hcut)
      rw [← List.append_nil s.toList, List.takeWhile_append_of_pos hall, List.takeWhile_nil]

theorem notMem_before (c : Char) (s : String) : c ∉ (before c s).toList := by
  unfold before
  split
  · next l r hcut =>
      rw [String.toList_ofList]
      exact notMem_of_cut hcut
  · next hcut => exact cut_eq_none_iff.mp hcut

theorem before_of_notMem {c : Char} {s : String} (h : c ∉ s.toList) : before c s = s := by
  rw [before, cut_eq_none_iff.mpr h]

/-! ## Dropping a character from the end -/

theorem dropEnd_dropEnd (c : Char) (s : String) : dropEnd c (dropEnd c s) = dropEnd c s := by
  rw [dropEnd, dropEnd, String.toList_ofList, List.reverse_reverse, List.dropWhile_idempotent]

theorem getLast?_dropEnd (c : Char) (s : String) : (dropEnd c s).toList.getLast? ≠ some c := by
  intro h
  rw [dropEnd, String.toList_ofList, List.getLast?_reverse] at h
  have hne := List.head?_dropWhile_not (· == c) s.toList.reverse
  rw [h] at hne
  simp at hne

theorem mem_dropWhile_iff {a b : α} (h : b ≠ a) (as : List α) :
    b ∈ as.dropWhile (· == a) ↔ b ∈ as := by
  induction as with
  | nil => rfl
  | cons x as ih =>
      by_cases hx : x = a
      · subst hx
        rw [List.dropWhile_cons_of_pos (by simp), ih, List.mem_cons, or_iff_right h]
      · rw [List.dropWhile_cons_of_neg (by simpa using hx)]

theorem mem_dropEnd_iff {c d : Char} (h : d ≠ c) (s : String) :
    d ∈ (dropEnd c s).toList ↔ d ∈ s.toList := by
  rw [dropEnd, String.toList_ofList, List.mem_reverse, mem_dropWhile_iff h, List.mem_reverse]

theorem exists_dropEnd_append (c : Char) (s : String) : ∃ t, dropEnd c s ++ t = s := by
  refine ⟨String.ofList (s.toList.reverse.takeWhile (· == c)).reverse, ?_⟩
  apply String.toList_inj.mp
  rw [String.toList_append, dropEnd, String.toList_ofList, String.toList_ofList, ← List.reverse_append,
    List.takeWhile_append_dropWhile, List.reverse_reverse]

end WebResource.Text
