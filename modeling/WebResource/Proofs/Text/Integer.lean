import WebResource.Json.Printer
import WebResource.Text.Integer

namespace WebResource.IntRange

/-!
# Integers are read back

An integer of a range is read from its decimal text, which is the same in paths, in forms and in
JSON.
-/

variable {bound n d : Nat} {excess : NumberError}

theorem digit?_digitChar (h : d < 10) : digit? (Nat.digitChar d) = some d := by
  have hall : ∀ m : Fin 10, digit? (Nat.digitChar m) = some m := by decide
  exact hall ⟨d, h⟩

theorem readDigits_append_digit {cs : List Char} {m : Nat}
    (h : readDigits bound excess n cs = .ok m) (hd : d < 10) (hbound : 10 * m + d ≤ bound) :
    readDigits bound excess n (cs ++ [Nat.digitChar d]) = .ok (10 * m + d) := by
  induction cs generalizing n with
  | nil =>
      cases h
      simp [readDigits, digit?_digitChar hd, Nat.not_lt.mpr hbound]
  | cons c cs ih =>
      rw [List.cons_append, readDigits]
      rw [readDigits] at h
      cases hc : digit? c with
      | none =>
          rw [hc] at h
          cases h
      | some x =>
          simp only [hc] at h ⊢
          split at h
          · cases h
          · next hle =>
              rw [if_neg hle]
              exact ih h

theorem readDigits_toDigits (h : n ≤ bound) :
    readDigits bound excess 0 (Nat.toDigits 10 n) = .ok n := by
  induction n using Nat.strongRecOn with
  | ind n ih =>
      by_cases hn : n < 10
      · rw [Nat.toDigits_of_lt_base hn]
        simp [readDigits, digit?_digitChar hn, Nat.not_lt.mpr h]
      · have hdigit : n % 10 < 10 := Nat.mod_lt n (by decide)
        have hvalue : 10 * (n / 10) + n % 10 = n := Nat.div_add_mod n 10
        have hfront := ih (n / 10) (by omega) (by omega)
        have hread := readDigits_append_digit hfront hdigit (by omega)
        rw [hvalue] at hread
        rw [Nat.toDigits_of_base_le (by decide) (by omega)]
        exact hread

theorem readChars_of_unsigned {r : IntRange} {c : Char} {cs : List Char} (hplus : c ≠ '+')
    (hminus : c ≠ '-') :
    r.readChars (c :: cs) = (readDigits r.max .tooLarge 0 (c :: cs)).map fun n => (n : Int) := by
  simp [readChars, hplus, hminus]

theorem readChars_toDigits {r : IntRange} (h : n ≤ r.max) :
    r.readChars (Nat.toDigits 10 n) = .ok n := by
  have hread : readDigits r.max .tooLarge 0 (Nat.toDigits 10 n) = .ok n := readDigits_toDigits h
  have hdigit (c : Char) (hc : c ∈ Nat.toDigits 10 n) : c.isDigit = true :=
    Nat.isDigit_of_mem_toDigits (by decide) (by decide) hc
  cases hcs : Nat.toDigits 10 n with
  | nil => exact absurd hcs Nat.toDigits_ne_nil
  | cons c cs =>
      rw [hcs] at hread hdigit
      have hc := hdigit c List.mem_cons_self
      have hplus : c ≠ '+' := by
        rintro rfl
        cases hc
      have hminus : c ≠ '-' := by
        rintro rfl
        cases hc
      rw [readChars_of_unsigned hplus hminus, hread]
      rfl

theorem read_intChars {r : IntRange} {i : Int} (h : r.holds i = true) :
    r.read (String.ofList (Json.intChars i)) = .ok i := by
  rw [holds, Bool.and_eq_true, decide_eq_true_eq, decide_eq_true_eq] at h
  rw [read, String.toList_ofList]
  cases i with
  | ofNat n => exact readChars_toDigits (Int.ofNat_le.mp h.2)
  | negSucc n =>
      have hle : n + 1 ≤ r.depth := by omega
      have hsigned : r.signed = true := by
        cases hs : r.signed with
        | true => rfl
        | false => simp [depth, hs] at hle
      have hne : (Nat.toDigits 10 (n + 1)).isEmpty = false :=
        List.isEmpty_eq_false_iff.mpr Nat.toDigits_ne_nil
      have hread : readDigits r.depth .tooSmall 0 (Nat.toDigits 10 (n + 1)) = .ok (n + 1) :=
        readDigits_toDigits hle
      rw [Json.intChars, readChars]
      simp only [hsigned, hne, hread]
      rfl

theorem toString_eq_intChars (i : Int) : toString i = String.ofList (Json.intChars i) := by
  cases i with
  | ofNat n => exact Nat.toString_eq_ofList_toDigits
  | negSucc n =>
      have hneg : ¬0 ≤ Int.negSucc n := by omega
      have hnat : (-Int.negSucc n).toNat = n + 1 := rfl
      rw [Int.toString_eq_repr, Int.repr_eq_if, if_neg hneg, hnat, Nat.repr_eq_ofList_toDigits]
      apply String.toList_inj.mp
      simp [Json.intChars]

theorem mem_intChars {i : Int} {c : Char} (hc : c ∈ Json.intChars i) : c = '-' ∨ c.isDigit = true := by
  cases i with
  | ofNat n => exact Or.inr (Nat.isDigit_of_mem_toDigits (by decide) (by decide) hc)
  | negSucc n =>
      rcases List.mem_cons.mp hc with rfl | hc
      · exact Or.inl rfl
      · exact Or.inr (Nat.isDigit_of_mem_toDigits (by decide) (by decide) hc)

theorem length_intChars_le {i : Int} (h : i64.holds i = true) : (Json.intChars i).length ≤ 20 := by
  have hdepth : (i64.depth : Int) = 9223372036854775808 := rfl
  have hmax : (i64.max : Int) = 9223372036854775807 := rfl
  rw [holds, Bool.and_eq_true, decide_eq_true_eq, decide_eq_true_eq, hdepth, hmax] at h
  have hdigits {n : Nat} (hn : n < 10 ^ 19) : (Nat.toDigits 10 n).length ≤ 19 :=
    (Nat.length_toDigits_le_iff (by decide) (by decide)).mpr hn
  cases i with
  | ofNat n =>
      rw [Int.ofNat_eq_natCast] at h
      have hn : (Nat.toDigits 10 n).length ≤ 19 := hdigits (by omega)
      rw [Json.intChars]
      omega
  | negSucc n =>
      have hn : (Nat.toDigits 10 (n + 1)).length ≤ 19 := hdigits (by omega)
      rw [Json.intChars, List.length_cons]
      omega

end WebResource.IntRange
