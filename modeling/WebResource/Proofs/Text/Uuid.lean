import Mathlib.Algebra.Group.Nat.Defs
import Mathlib.Data.List.Basic
import WebResource.Proofs.Text.Utf8
import WebResource.Text.Uuid

namespace WebResource

/-!
# Universally unique identifiers are read back

The digits of a number give it back, up to the places that they leave out, and the text of an
identifier is read as the identifier.
-/

namespace Hex

theorem lower_ascii {n : Nat} (h : n < 16) : (lower n).toNat < 0x80 := by
  have hall : ∀ m : Fin 16, (lower m).toNat < 0x80 := by decide
  exact hall ⟨n, h⟩

theorem length_padded (count n : Nat) : (padded count n).length = count := by
  induction count generalizing n with
  | zero => rfl
  | succ count ih => rw [padded, List.length_append, ih, List.length_singleton]

theorem mem_padded {count n : Nat} {c : Char} (h : c ∈ padded count n) : ∃ d < 16, c = lower d := by
  induction count generalizing n with
  | zero => cases h
  | succ count ih =>
      rcases List.mem_append.mp h with h | h
      · exact ih h
      · exact ⟨n % 16, Nat.mod_lt n (by decide), List.mem_singleton.mp h⟩

theorem values_padded (count n : Nat) :
    ∃ ds, (padded count n).mapM (fun c => value? c.toNat) = some ds ∧
      ds.foldl (fun acc d => 16 * acc + d) 0 = n % 16 ^ count := by
  induction count generalizing n with
  | zero => exact ⟨[], rfl, (Nat.mod_one n).symm⟩
  | succ count ih =>
      obtain ⟨ds, hds, hvalue⟩ := ih (n / 16)
      have hlast : value? (lower (n % 16)).toNat = some (n % 16) :=
        value?_lower (Nat.mod_lt n (by decide))
      refine ⟨ds ++ [n % 16], ?_, ?_⟩
      · rw [padded, List.mapM_append, hds]
        simp [hlast]
      · rw [List.foldl_append, hvalue, Nat.pow_succ', Nat.mod_mul, Nat.add_comm]
        rfl

end Hex

namespace Uuid

variable {a b c d e : List Char}

theorem ofDigits?_digits (u : Uuid) : ofDigits? u.digits = some u := by
  obtain ⟨ds, hds, hvalue⟩ := Hex.values_padded 32 u.bits.toNat
  have hbits : u.bits.toNat % 16 ^ 32 = u.bits.toNat := Nat.mod_eq_of_lt u.bits.isLt
  rw [ofDigits?, digits, hds, Option.map_some, hvalue, hbits, BitVec.ofNat_toNat, BitVec.setWidth_eq]

/-- Five groups of digits with hyphens between them. -/
def grouped (a b c d e : List Char) : List Char :=
  a ++ '-' :: b ++ '-' :: c ++ '-' :: d ++ '-' :: e

theorem mem_grouped {x : Char} (h : x ∈ grouped a b c d e) : x = '-' ∨ x ∈ a ++ b ++ c ++ d ++ e := by
  simp only [grouped, List.mem_append, List.mem_cons] at h ⊢
  tauto

theorem hyphenated?_grouped (ha : a.length = 8) (hb : b.length = 4) (hc : c.length = 4)
    (hd : d.length = 4) : hyphenated? (grouped a b c d e) = ofDigits? (a ++ b ++ c ++ d ++ e) := by
  have hhyphens : (hyphens.all fun i => (grouped a b c d e)[i]? == some '-') = true := by
    simp [hyphens, grouped, ha, hb, hc, hd, List.getElem?_append]
  rw [hyphenated?, if_pos hhyphens]
  simp (disch := omega) [grouped, ha, hb, hc, hd, List.drop_append, List.drop_eq_nil_of_le]

theorem toText_eq (u : Uuid) : ∃ a b c d e, u.toText = String.ofList (grouped a b c d e) ∧
    u.digits = a ++ b ++ c ++ d ++ e ∧ a.length = 8 ∧ b.length = 4 ∧ c.length = 4 ∧ d.length = 4 := by
  have hlength : u.digits.length = 32 := Hex.length_padded 32 _
  have hsplit (m n : Nat) :
      (u.digits.drop m).take n ++ u.digits.drop (m + n) = u.digits.drop m := by
    rw [← List.drop_drop, List.take_append_drop]
  refine ⟨u.digits.take 8, (u.digits.drop 8).take 4, (u.digits.drop 12).take 4,
    (u.digits.drop 16).take 4, u.digits.drop 20, rfl, ?_, ?_, ?_, ?_, ?_⟩
  · simp only [List.append_assoc]
    rw [hsplit 16 4, hsplit 12 4, hsplit 8 4, List.take_append_drop]
  all_goals simp [hlength]

/-- An identifier is read back from its text, which is ASCII and has the length of the hyphenated
form. -/
theorem parse_toText (u : Uuid) : parse u.toText = .ok u := by
  obtain ⟨a, b, c, d, e, htext, hdigits, ha, hb, hc, hd⟩ := u.toText_eq
  have hlength : (grouped a b c d e).length = 36 := by
    have hall := congrArg List.length hdigits
    rw [digits, Hex.length_padded] at hall
    simp only [List.length_append, ha, hb, hc, hd] at hall
    simp only [grouped, List.length_append, List.length_cons, ha, hb, hc, hd]
    omega
  have hascii : ∀ x ∈ grouped a b c d e, x.toNat < 0x80 := by
    intro x hx
    rcases mem_grouped hx with rfl | hx
    · decide
    · rw [← hdigits] at hx
      obtain ⟨n, hn, rfl⟩ := Hex.mem_padded hx
      exact Hex.lower_ascii hn
  have hbytes : byteLength (grouped a b c d e) = 36 := by
    rw [byteLength, Utf8.encodeChars_ascii hascii, List.length_map, hlength]
  have hread : hyphenated? (grouped a b c d e) = some u := by
    rw [hyphenated?_grouped ha hb hc hd, ← hdigits, ofDigits?_digits]
  rw [parse, htext, String.toList_ofList, parseChars, hyphenatedPart?, hbytes]
  simp [maxLength, hread]

end Uuid

end WebResource
