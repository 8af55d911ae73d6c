import WebResource.Json.Printer
import WebResource.Proofs.Json.Reading
import WebResource.Proofs.Text.Utf8

namespace WebResource.Json

/-!
# Strings as they are written

The escape of a character adds the bytes of the character to the content of a string, so at the
closing quote the content is the UTF-8 of the text.
-/

namespace Literal

variable {l l' : Literal} {as bs content : Bytes}

/-- The string being read after some bytes, if it has neither ended nor failed. -/
def readOn (l : Literal) : Bytes → Option Literal
  | [] => some l
  | b :: bs =>
    match l.step b with
    | .more l => readOn l bs
    | _ => none

theorem readOn_append (h : l.readOn as = some l') : l.readOn (as ++ bs) = l'.readOn bs := by
  induction as generalizing l with
  | nil =>
      cases h
      rfl
  | cons a as ih =>
      rw [List.cons_append, readOn]
      rw [readOn] at h
      split at h
      · exact ih h
      · cases h

theorem readOn_singleton {b : UInt8} (h : l.step b = .more l') : l.readOn [b] = some l' := by
  rw [readOn, h]
  rfl

theorem step_plain {b : UInt8} (hquote : b ≠ 0x22) (hslash : b ≠ 0x5C) (hcontrol : 0x20 ≤ b.toNat) :
    step ⟨content, .none⟩ b = .more ⟨b :: content, .none⟩ := by
  simp only [step]
  rw [if_neg hquote, if_neg hslash, if_neg (by omega)]
  rfl

theorem readOn_plain (h : ∀ b ∈ bs, b ≠ 0x22 ∧ b ≠ 0x5C ∧ 0x20 ≤ b.toNat) :
    readOn ⟨content, .none⟩ bs = some ⟨bs.reverse ++ content, .none⟩ := by
  induction bs generalizing content with
  | nil => rfl
  | cons b bs ih =>
      obtain ⟨⟨hquote, hslash, hcontrol⟩, hbs⟩ := List.forall_mem_cons.mp h
      rw [readOn, step_plain hquote hslash hcontrol]
      simp only
      rw [ih hbs, List.reverse_cons, List.append_assoc, List.singleton_append]

theorem eq_of_toNat {c d : Char} (h : c.toNat = d.toNat) : c = d := by
  rw [← Char.ofNat_toNat c, h, Char.ofNat_toNat]

theorem readOn_letter {c e : Char} (h : escapeLetter? c = some e) :
    readOn ⟨content, .none⟩ (Utf8.encodeChars ['\\', e]) =
      some ⟨(Utf8.encodeChar c).reverse ++ content, .none⟩ := by
  unfold escapeLetter? at h
  split at h
  · next hc => cases h; subst hc; rfl
  split at h
  · next hc => cases h; subst hc; rfl
  split at h
  · next hc => cases h; subst hc; rfl
  split at h
  · next hc => cases h; subst hc; rfl
  split at h
  · next hc => cases h; subst hc; rfl
  split at h
  · next hc =>
      cases h
      obtain rfl : c = Char.ofNat 0x08 := eq_of_toNat hc
      rfl
  split at h
  · next hc =>
      cases h
      obtain rfl : c = Char.ofNat 0x0C := eq_of_toNat hc
      rfl
  · cases h

theorem readOn_hex {n : Nat} (h : n < 0x20) :
    readOn ⟨content, .none⟩ (Utf8.encodeChars (['\\', 'u'] ++ Hex.padded 4 n)) =
      some ⟨(Utf8.encodeNat n).reverse ++ content, .none⟩ := by
  have hall : ∀ m : Fin 0x20, Utf8.encodeChars (Hex.padded 4 m) =
      [0x30, 0x30, UInt8.ofNat (Hex.lower (m / 16)).toNat, UInt8.ofNat (Hex.lower (m % 16)).toNat] ∧
      hexValue [0x30, 0x30, UInt8.ofNat (Hex.lower (m / 16)).toNat,
        UInt8.ofNat (Hex.lower (m % 16)).toNat] = some m.val := by decide
  obtain ⟨hdigits, hvalue⟩ := hall ⟨n, h⟩
  simp only at hdigits hvalue
  have hopen : Utf8.encodeChars ['\\', 'u'] = [0x5C, 0x75] := by decide
  rw [Utf8.encodeChars_append, hdigits, hopen]
  generalize UInt8.ofNat (Hex.lower (n / 16)).toNat = high at hvalue
  generalize UInt8.ofNat (Hex.lower (n % 16)).toNat = low at hvalue
  have hclose : step ⟨content, .hex [0x30, 0x30, high] none⟩ low =
      .more ⟨(Utf8.encodeNat n).reverse ++ content, .none⟩ := by
    simp only [step, List.length_cons, List.length_nil, List.cons_append, List.nil_append, hvalue]
    rw [if_neg (by omega), closeHex, if_neg (by omega), if_neg (by omega)]
    rfl
  have hfront : readOn ⟨content, .none⟩ [0x5C, 0x75, 0x30, 0x30, high] =
      some ⟨content, .hex [0x30, 0x30, high] none⟩ := rfl
  exact (readOn_append hfront).trans (readOn_singleton hclose)

theorem readOn_escapeChar (c : Char) :
    readOn ⟨content, .none⟩ (Utf8.encodeChars (escapeChar c)) =
      some ⟨(Utf8.encodeChar c).reverse ++ content, .none⟩ := by
  unfold escapeChar
  split
  · next e he => exact readOn_letter he
  · next hnone =>
      split
      · next hcontrol => exact readOn_hex hcontrol
      · next hcontrol =>
          have hself : Utf8.encodeChars [c] = Utf8.encodeChar c := by simp [Utf8.encodeChars]
          rw [hself]
          refine readOn_plain fun b hb => ?_
          have hplain : c ≠ '"' ∧ c ≠ '\\' := by
            constructor
            · rintro rfl
              cases hnone
            · rintro rfl
              cases hnone
          by_cases hascii : c.toNat < 0x80
          · rw [Utf8.encodeChar_ascii hascii, List.mem_singleton] at hb
            have hnat : b.toNat = c.toNat := hb ▸ Utf8.toNat_ofNat_of_lt (by omega)
            refine ⟨fun hquote => hplain.1 (eq_of_toNat ?_), fun hslash => hplain.2 (eq_of_toNat ?_),
              by omega⟩
            · rw [← hnat, hquote]
              rfl
            · rw [← hnat, hslash]
              rfl
          · have hle := Utf8.le_of_mem_encodeChar (by omega) hb
            refine ⟨?_, ?_, by omega⟩
            · rintro rfl
              exact absurd hle (by decide)
            · rintro rfl
              exact absurd hle (by decide)

theorem readOn_escapeChars (cs : List Char) :
    readOn ⟨content, .none⟩ (Utf8.encodeChars (cs.flatMap escapeChar)) =
      some ⟨(Utf8.encodeChars cs).reverse ++ content, .none⟩ := by
  induction cs generalizing content with
  | nil => rfl
  | cons c cs ih =>
      have hcons : Utf8.encodeChars (c :: cs) = Utf8.encodeChar c ++ Utf8.encodeChars cs := by
        simp [Utf8.encodeChars]
      rw [List.flatMap_cons, Utf8.encodeChars_append, readOn_append (readOn_escapeChar c), ih, hcons,
        List.reverse_append, List.append_assoc]

theorem step_quote (s : String) : step ⟨(Utf8.encode s).reverse, .none⟩ 0x22 = .done s := by
  simp only [step, if_true, close, List.reverse_reverse, Utf8.decode?_encode]

end Literal

variable {stack : List Frame}

theorem passes_of_readOn (state : Literal → State)
    (hstep : ∀ l b l', l.step b = .more l' →
      step (state l) stack b = .more (state l') stack)
    (hbenign : ∀ l, Benign (state l)) {l l' : Literal} {bs : Bytes} (h : l.readOn bs = some l') :
    Passes (state l) stack bs (state l') stack := by
  induction bs generalizing l with
  | nil =>
      cases h
      exact .nil (hbenign _)
  | cons b bs ih =>
      rw [Literal.readOn] at h
      split at h
      · next l₁ hl => exact .cons (hbenign l) (hstep l b l₁ hl) (ih h)
      · cases h

/-- The bytes of a string between its quotes. -/
def stringBody (s : String) : Bytes := Utf8.encodeChars (s.toList.flatMap escapeChar)

/-- The machine at the end of a string, before its closing quote. -/
def literalOf (s : String) : Literal := ⟨(Utf8.encode s).reverse, .none⟩

theorem readOn_stringBody (s : String) : Literal.empty.readOn (stringBody s) = some (literalOf s) := by
  have h : Literal.readOn ⟨[], .none⟩ (stringBody s) = some ⟨_ ++ [], .none⟩ :=
    Literal.readOn_escapeChars s.toList
  rw [List.append_nil] at h
  exact h

theorem passes_text (s : String) :
    Passes (.text .empty) stack (stringBody s) (.text (literalOf s)) stack :=
  passes_of_readOn .text (fun l b l' h => by simp only [step, h, stepLiteral])
    (fun _ => trivial) (readOn_stringBody s)

theorem passes_keyText (s : String) :
    Passes (.keyText .empty) stack (stringBody s) (.keyText (literalOf s)) stack :=
  passes_of_readOn .keyText (fun l b l' h => by simp only [step, h, stepLiteral])
    (fun _ => trivial) (readOn_stringBody s)

theorem step_text_quote (s : String) :
    step (.text (literalOf s)) stack 0x22 = deliver (.str s) stack := by
  simp only [step, literalOf, Literal.step_quote, stepLiteral]

theorem step_keyText_quote (s : String) :
    step (.keyText (literalOf s)) stack 0x22 = .more .colon (named s stack) := by
  simp only [step, literalOf, Literal.step_quote, stepLiteral]

end WebResource.Json
