import WebResource.Media
import WebResource.Proofs.Text.Split

namespace WebResource

/-!
# Canonical media types

The canonical form of a media type has no parameters, no blanks at its ends and no capital letters, so
it is its own canonical form.
-/

namespace Text

variable {cs : List Char}

/-! ## Blanks at the ends -/

/-- A text without blanks at its ends. -/
structure Trimmed (cs : List Char) : Prop where
  front : dropBlanks cs = cs
  back : cs.rdropWhile isBlank = cs

theorem trimChars_eq (cs : List Char) : trimChars cs = (dropBlanks cs).rdropWhile isBlank := rfl

theorem mem_of_mem_trimChars {c : Char} (h : c ∈ trimChars cs) : c ∈ cs := by
  rw [trimChars_eq] at h
  exact (List.dropWhile_sublist isBlank).subset
    ((List.rdropWhile_prefix isBlank (dropBlanks cs)).subset h)

/-- What is cut off at the end leaves the front as it was. -/
theorem dropBlanks_rdropWhile (h : dropBlanks cs = cs) :
    dropBlanks (cs.rdropWhile isBlank) = cs.rdropWhile isBlank := by
  have hfront := List.rdropWhile_prefix isBlank cs
  rw [dropBlanks, List.dropWhile_eq_self_iff] at h ⊢
  intro hpos
  rw [hfront.getElem hpos]
  exact h (hpos.trans_le hfront.length_le)

theorem trimmed_trimChars (cs : List Char) : Trimmed (trimChars cs) where
  front := dropBlanks_rdropWhile (List.dropWhile_idempotent isBlank cs)
  back := List.rdropWhile_idempotent isBlank _

theorem Trimmed.trimChars_eq (h : Trimmed cs) : trimChars cs = cs := by
  rw [Text.trimChars_eq, h.front, h.back]

end Text

namespace Media

open Text

/-! ## Letters -/

theorem isBlank_of_letter {c : Char} (hlow : 65 ≤ c.toNat) (hhigh : c.toNat ≤ 122) :
    isBlank c = false := by
  have hcodes : ∀ n ∈ blankCodes, n < 65 ∨ 122 < n := by decide
  by_contra hblank
  rw [Bool.not_eq_false, isBlank, List.contains_iff_mem] at hblank
  have hcode := hcodes c.toNat hblank
  omega

theorem lowerChar_cases (c : Char) : (lowerChar c = c ∧ ¬(65 ≤ c.toNat ∧ c.toNat ≤ 90)) ∨
    (65 ≤ c.toNat ∧ c.toNat ≤ 90 ∧ (lowerChar c).toNat = c.toNat + 32) := by
  have hcapital : ('A' ≤ c ∧ c ≤ 'Z') ↔ (65 ≤ c.toNat ∧ c.toNat ≤ 90) := Iff.rfl
  rw [lowerChar]
  split
  · next h =>
      obtain ⟨hlow, hhigh⟩ := hcapital.mp h
      have hvalid : (c.toNat + 32).isValidChar := Or.inl (by omega)
      refine Or.inr ⟨hlow, hhigh, ?_⟩
      rw [Char.ofNat, dif_pos hvalid]
      rfl
  · next h => exact Or.inl ⟨rfl, fun hc => h (hcapital.mpr hc)⟩

theorem lowerChar_lowerChar (c : Char) : lowerChar (lowerChar c) = lowerChar c := by
  rcases lowerChar_cases c with ⟨hsame, -⟩ | ⟨hlow, hhigh, hlower⟩
  · rw [hsame, hsame]
  · rcases lowerChar_cases (lowerChar c) with ⟨hsame, -⟩ | ⟨-, hhigh', -⟩
    · exact hsame
    · omega

theorem isBlank_lowerChar (c : Char) : isBlank (lowerChar c) = isBlank c := by
  rcases lowerChar_cases c with ⟨hsame, -⟩ | ⟨hlow, hhigh, hlower⟩
  · rw [hsame]
  · rw [isBlank_of_letter (c := c) hlow (by omega),
      isBlank_of_letter (c := lowerChar c) (by omega) (by omega)]

theorem eq_semicolon_of_lowerChar {c : Char} (h : lowerChar c = ';') : c = ';' := by
  rcases lowerChar_cases c with ⟨hsame, -⟩ | ⟨hlow, hhigh, hlower⟩
  · rw [← hsame, h]
  · rw [h] at hlower
    have hcode : (';' : Char).toNat = 59 := rfl
    omega

theorem trimmed_lower {cs : List Char} (h : Trimmed cs) : Trimmed (cs.map lowerChar) := by
  have hblank : isBlank ∘ lowerChar = isBlank := funext isBlank_lowerChar
  constructor
  · rw [dropBlanks, List.dropWhile_map, hblank, ← dropBlanks, h.front]
  · have hback := h.back
    rw [List.rdropWhile, ← List.map_reverse, List.dropWhile_map, hblank, ← List.map_reverse,
      ← List.rdropWhile, hback]

/-! ## Canonical forms -/

theorem toList_canonical (value : String) :
    (canonical value).toList = (trimChars (before ';' value).toList).map lowerChar := by
  rw [canonical, lower, trim, String.toList_ofList, String.toList_ofList]

/-- What a canonical form is made of. -/
structure Canonical (value : String) : Prop where
  bare : ';' ∉ value.toList
  trimmed : Trimmed value.toList
  lower : value.toList.map lowerChar = value.toList

theorem canonical_isCanonical (value : String) : Canonical (canonical value) := by
  rw [← String.ofList_toList (s := canonical value), toList_canonical]
  refine ⟨?_, ?_, ?_⟩
  · rw [String.toList_ofList]
    intro hmem
    obtain ⟨c, hc, hlower⟩ := List.mem_map.mp hmem
    obtain rfl := eq_semicolon_of_lowerChar hlower
    exact notMem_before ';' value (mem_of_mem_trimChars hc)
  · rw [String.toList_ofList]
    exact trimmed_lower (trimmed_trimChars _)
  · rw [String.toList_ofList, List.map_map]
    exact congrArg (List.map · _) (funext lowerChar_lowerChar)

theorem Canonical.canonical_eq {value : String} (h : Canonical value) : canonical value = value := by
  rw [canonical, before_of_notMem h.bare, trim, h.trimmed.trimChars_eq, Media.lower,
    String.toList_ofList, h.lower, String.ofList_toList]

@[simp] theorem canonical_canonical (value : String) : canonical (canonical value) = canonical value :=
  (canonical_isCanonical value).canonical_eq

end Media

end WebResource
