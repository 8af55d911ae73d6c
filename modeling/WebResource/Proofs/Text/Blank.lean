import WebResource.Proofs.Text.Split
import WebResource.Text.Blank

namespace WebResource.Text

/-!
# Words between blanks

A text that is cut at a blank has the words of the two parts, one after another.
-/

variable {c : Char} {w : List Char}

theorem wordsChars_cons_ne_nil (h : isBlank c = false) (cs : List Char) : wordsChars (c :: cs) ≠ [] := by
  cases cs with
  | nil => simp [wordsChars, h]
  | cons d cs =>
      simp only [wordsChars, h, Bool.false_eq_true, if_false]
      split
      · exact List.cons_ne_nil _ _
      · split <;> exact List.cons_ne_nil _ _

theorem wordsChars_append_blank (h : isBlank c = true) (as bs : List Char) :
    wordsChars (as ++ c :: bs) = wordsChars as ++ wordsChars bs := by
  induction as with
  | nil => cases bs <;> simp [wordsChars, h]
  | cons a as ih =>
      cases as with
      | nil => cases ha : isBlank a <;> simp [wordsChars, ha, h]
      | cons b as =>
          rw [List.cons_append] at ih ⊢
          rw [List.cons_append, wordsChars, ih, wordsChars]
          split
          · rfl
          · split
            · rfl
            · next hb =>
                obtain ⟨w, ws, hws⟩ := List.exists_cons_of_ne_nil
                  (wordsChars_cons_ne_nil (Bool.not_eq_true _ ▸ hb) as)
                rw [hws]
                rfl

theorem wordsChars_cons_blank (h : isBlank c = true) (cs : List Char) :
    wordsChars (c :: cs) = wordsChars cs :=
  wordsChars_append_blank h [] cs

theorem wordsChars_concat_blank (h : isBlank c = true) (cs : List Char) :
    wordsChars (cs ++ [c]) = wordsChars cs := by
  rw [wordsChars_append_blank h, wordsChars, List.append_nil]

theorem wordsChars_of_ink (hne : w ≠ []) (hw : ∀ c ∈ w, isBlank c = false) : wordsChars w = [w] := by
  induction w with
  | nil => exact absurd rfl hne
  | cons a w ih =>
      obtain ⟨ha, hrest⟩ := List.forall_mem_cons.mp hw
      cases w with
      | nil => simp [wordsChars, ha]
      | cons b w =>
          have hwords := ih (List.cons_ne_nil b w) hrest
          rw [wordsChars, hwords]
          simp [ha, hrest b List.mem_cons_self]

end WebResource.Text
