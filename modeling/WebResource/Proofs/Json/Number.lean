import WebResource.Json.Printer
import WebResource.Proofs.Json.Reading

namespace WebResource.Json

/-!
# Integers as they are written

The digits of an integer of the range take the machine to that integer. Every front of them is an
integer of the range too, or a lone sign.
-/

variable {s : State} {stack : List Frame} {b : UInt8} {negative : Bool} {n d : Nat}

/-! ## Digits -/

def digitByte (d : Nat) : UInt8 := UInt8.ofNat (Nat.digitChar d).toNat

theorem toNat_digitByte (h : d < 10) : (digitByte d).toNat = 0x30 + d := by
  have hall : ∀ m : Fin 10, (digitByte m).toNat = 0x30 + m := by decide
  exact hall ⟨d, h⟩

theorem digit?_digitByte (h : d < 10) : Numeral.digit? (digitByte d) = some d := by
  rw [Numeral.digit?, toNat_digitByte h, if_pos (by omega), Nat.add_sub_cancel_left]

theorem ascii_append (cs ds : List Char) : ascii (cs ++ ds) = ascii cs ++ ascii ds := by
  simp [ascii]

theorem ascii_toDigits_of_lt (h : n < 10) : ascii (Nat.toDigits 10 n) = [digitByte n] := by
  rw [Nat.toDigits_of_lt_base h]
  rfl

theorem ascii_toDigits_of_le (h : 10 ≤ n) :
    ascii (Nat.toDigits 10 n) = ascii (Nat.toDigits 10 (n / 10)) ++ [digitByte (n % 10)] := by
  rw [Nat.toDigits_of_base_le (by decide) h, ascii_append]
  rfl

/-- The digits of a number, from a state in which the first digit of it may come. -/
theorem passes_toDigits (hs : Benign s) (hn : 0 < n) (hmax : n ≤ maxNat)
    (hfirst : ∀ d, 0 < d → d < 10 →
      step s stack (digitByte d) = .more (.number negative (.whole d)) stack)
    (hbenign : ∀ m, 0 < m → m ≤ n → Benign (.number negative (.whole m))) :
    Passes s stack (ascii (Nat.toDigits 10 n)) (.number negative (.whole n)) stack := by
  induction n using Nat.strongRecOn with
  | ind n ih =>
      by_cases h : n < 10
      · rw [ascii_toDigits_of_lt h]
        exact Passes.one hs (hfirst n hn h) (hbenign n hn (Nat.le_refl n))
      · have hfront := ih (n / 10) (by omega) (by omega) (by omega)
          fun m hm hle => hbenign m hm (by omega)
        have hlast : n % 10 < 10 := by omega
        have hvalue : 10 * (n / 10) + n % 10 = n := by omega
        have hstep : step (.number negative (.whole (n / 10))) stack (digitByte (n % 10)) =
            .more (.number negative (.whole n)) stack := by
          have hfits : Numeral.fits (n / 10) (n % 10) = true := by
            simp only [Numeral.fits, hvalue, decide_eq_true_eq]
            exact hmax
          simp only [step, Numeral.step, digit?_digitByte hlast, hfits, if_true, hvalue]
        rw [ascii_toDigits_of_le (by omega)]
        exact hfront.append (Passes.one hfront.benign_right hstep (hbenign n hn (Nat.le_refl n)))

/-! ## Integers -/

/-- A byte that ends a value in the text of a list or an object. -/
def EndsValue (b : UInt8) : Prop := b = 0x2C ∨ b = 0x5D ∨ b = 0x7D ∨ b = 0x0A

/-- A number that is complete as soon as its text has ended. -/
def Numeral.Complete (n : Numeral) : Prop := ∀ b, EndsValue b → n.step b = .over

theorem complete_zero : Numeral.zero.Complete := by
  rintro b (rfl | rfl | rfl | rfl) <;> rfl

theorem complete_whole (n : Nat) : (Numeral.whole n).Complete := by
  rintro b (rfl | rfl | rfl | rfl) <;> rfl

/-- A state in which a value may start. -/
def Awaits (s : State) : Prop := s = .value ∨ s = .itemOrEnd ∨ s = .item

theorem Awaits.benign (h : Awaits s) : Benign s := by
  rcases h with rfl | rfl | rfl <;> trivial

theorem Awaits.step (h : Awaits s) (hblank : isBlankByte b = false) (hclose : b ≠ 0x5D) :
    step s stack b = startValue stack b := by
  rcases h with rfl | rfl | rfl <;> simp [Json.step, hblank, hclose]

theorem integer_true (hn : 0 < n) (hmax : n ≤ 9223372036854775808) :
    Numeral.integer true n = .ok (.int (-(n : Int))) := by
  have hpow : Nat.pow 2 63 = 9223372036854775808 := by decide
  have hne : n ≠ 0 := by omega
  unfold Numeral.integer
  simp only [Bool.not_true, Bool.false_eq_true, if_false]
  rw [if_pos ⟨hne, hpow ▸ hmax⟩]

theorem passes_intChars (hs : Awaits s) {i : Int} (hmin : minInt ≤ i) (hmax : i ≤ maxNat) :
    ∃ negative n, Passes s stack (ascii (intChars i)) (.number negative n) stack ∧
      n.value negative = .ok (.int i) ∧ n.Complete := by
  have hdigit : ∀ d, 0 < d → d < 10 → Json.step s stack (digitByte d) =
      .more (.number false (.whole d)) stack := by
    have hall : ∀ m : Fin 10, 0 < m.val →
        isBlankByte (digitByte m) = false ∧ digitByte m ≠ 0x5D ∧ digitByte m ≠ 0x22 ∧
          digitByte m ≠ 0x5B ∧ digitByte m ≠ 0x7B ∧ digitByte m ≠ 0x2D ∧ digitByte m ≠ 0x30 ∧
            0x31 ≤ (digitByte m).toNat ∧ (digitByte m).toNat ≤ 0x39 ∧
              (digitByte m).toNat - 0x30 = m := by decide
    intro d hpos hlt
    obtain ⟨hblank, hclose, hquote, hlist, hobj, hminus, hzero, hlo, hhi, hvalue⟩ :=
      hall ⟨d, hlt⟩ hpos
    simp only at hblank hclose hquote hlist hobj hminus hzero hlo hhi hvalue
    rw [hs.step hblank hclose, startValue, if_neg hquote, if_neg hlist, if_neg hobj, if_neg hminus,
      if_neg hzero, if_pos ⟨hlo, hhi⟩, hvalue]
  cases i with
  | ofNat n =>
      have hle : n ≤ maxNat := by
        have : ((n : Int)) ≤ (maxNat : Int) := hmax
        omega
      cases Nat.eq_zero_or_pos n with
      | inl hzero =>
          subst hzero
          refine ⟨false, .zero, ?_, rfl, complete_zero⟩
          have hstep : Json.step s stack 0x30 = .more (.number false .zero) stack := by
            rw [hs.step (by decide) (by decide)]
            rfl
          exact Passes.one hs.benign hstep (Or.inl ⟨0, rfl⟩)
      | inr hpos =>
          exact ⟨false, .whole n, passes_toDigits hs.benign hpos hle hdigit
            fun m _ _ => Or.inl ⟨m, rfl⟩, rfl, complete_whole n⟩
  | negSucc n =>
      have hle : n + 1 ≤ 9223372036854775808 := by
        have : (-9223372036854775808 : Int) ≤ Int.negSucc n := hmin
        omega
      have hsign : Json.step s stack 0x2D = .more (.number true .sign) stack := by
        rw [hs.step (by decide) (by decide)]
        rfl
      have hbenign : Benign (.number true .sign) := Or.inr ⟨.endInValue, rfl, rfl⟩
      refine ⟨true, .whole (n + 1), ?_, integer_true (Nat.succ_pos n) hle, complete_whole _⟩
      refine .cons hs.benign hsign (passes_toDigits hbenign (Nat.succ_pos n)
        (Nat.le_trans hle (by decide)) (fun d hpos hlt => ?_) fun m hpos hm => ?_)
      · obtain ⟨d, rfl⟩ : ∃ m, d = m + 1 := ⟨d - 1, by omega⟩
        simp only [Json.step, Numeral.step, digit?_digitByte hlt]
      · exact Or.inl ⟨_, integer_true hpos (by omega)⟩

end WebResource.Json
