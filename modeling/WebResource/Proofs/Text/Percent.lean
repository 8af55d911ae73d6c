import WebResource.Proofs.Text.Utf8
import WebResource.Text.Percent

namespace WebResource.Percent

/-!
# Escapes are undone

Reading undoes the escapes of any writer that escapes the percent sign, whatever follows. A text
that is written as one path segment holds nothing but unreserved characters and escapes, so it can
neither end the segment nor the path.
-/

theorem decodeBytes_cons_of_ne {b : UInt8} (h : b ≠ 0x25) (bs : Bytes) :
    decodeBytes (b :: bs) = b :: decodeBytes bs := by
  rw [decodeBytes.eq_def]
  exact if_neg h

theorem toNat_upper {n : Nat} (h : n < 16) : (Hex.upper n).toNat < 0x80 := by
  have hall : ∀ m : Fin 16, (Hex.upper m).toNat < 0x80 := by decide
  exact hall ⟨n, h⟩

theorem decodeBytes_escape (b : UInt8) (bs : Bytes) :
    decodeBytes (escape b ++ bs) = b :: decodeBytes bs := by
  have hb : b.toNat < 256 := b.toNat_lt
  have hhi : b.toNat / 16 < 16 := by omega
  have hlo : b.toNat % 16 < 16 := by omega
  have hupper : ∀ n < 16, (UInt8.ofNat (Hex.upper n).toNat).toNat = (Hex.upper n).toNat :=
    fun n hn => Utf8.toNat_ofNat_of_lt (by have := toNat_upper hn; omega)
  have hval : 16 * (b.toNat / 16) + b.toNat % 16 = b.toNat := by omega
  simp only [escape, List.cons_append, List.nil_append]
  rw [decodeBytes, if_pos rfl]
  simp only [hupper _ hhi, hupper _ hlo, Hex.value?_upper hhi, Hex.value?_upper hlo, hval,
    UInt8.ofNat_toNat]

section Writer

variable {keep : UInt8 → Bool}

theorem decodeBytes_encodeBytes (hkeep : keep 0x25 = false) (bs rest : Bytes) :
    decodeBytes (encodeBytes keep bs ++ rest) = bs ++ decodeBytes rest := by
  induction bs with
  | nil => rfl
  | cons b bs ih =>
      have hcons : encodeBytes keep (b :: bs) =
          (if keep b then [b] else escape b) ++ encodeBytes keep bs := List.flatMap_cons
      rw [hcons, List.append_assoc]
      by_cases hb : keep b = true
      · have hne : b ≠ 0x25 := by
          rintro rfl
          simp [hkeep] at hb
        rw [if_pos hb, List.singleton_append, decodeBytes_cons_of_ne hne, ih, List.cons_append]
      · rw [if_neg hb, decodeBytes_escape, ih, List.cons_append]

/-- A byte that a writer writes is one it keeps, a percent sign or a digit of an escape. -/
theorem mem_encodeBytes {b : UInt8} {bs : Bytes} (h : b ∈ encodeBytes keep bs) :
    keep b = true ∨ b = 0x25 ∨ ∃ n < 16, b = UInt8.ofNat (Hex.upper n).toNat := by
  obtain ⟨a, -, hb⟩ := List.mem_flatMap.mp h
  have ha : a.toNat < 256 := a.toNat_lt
  by_cases hk : keep a = true
  · rw [if_pos hk, List.mem_singleton] at hb
    exact Or.inl (hb ▸ hk)
  · rw [if_neg hk, escape] at hb
    simp only [List.mem_cons, List.not_mem_nil, or_false] at hb
    rcases hb with hb | hb | hb
    · exact Or.inr (Or.inl hb)
    · exact Or.inr (Or.inr ⟨_, by omega, hb⟩)
    · exact Or.inr (Or.inr ⟨_, by omega, hb⟩)

end Writer

/-! ## Texts of ASCII bytes -/

theorem toList_text (bs : Bytes) : (text bs).toList = bs.map fun b => Char.ofNat b.toNat := by
  simp [text]

theorem toNat_charOf {b : UInt8} (h : b.toNat < 0x80) : (Char.ofNat b.toNat).toNat = b.toNat := by
  have hv : b.toNat.isValidChar := Or.inl (by omega)
  rw [Char.ofNat, dif_pos hv]
  rfl

theorem encode_text {bs : Bytes} (h : ∀ b ∈ bs, b.toNat < 0x80) : Utf8.encode (text bs) = bs := by
  have hascii : ∀ c ∈ (text bs).toList, c.toNat < 0x80 := by
    intro c hc
    rw [toList_text] at hc
    obtain ⟨b, hb, rfl⟩ := List.mem_map.mp hc
    rw [toNat_charOf (h b hb)]
    exact h b hb
  rw [Utf8.encode, Utf8.encodeChars_ascii hascii, toList_text, List.map_map]
  refine (List.map_congr_left fun b hb => ?_).trans (List.map_id bs)
  simp [toNat_charOf (h b hb)]

/-! ## Path segments -/

/-- A character that may stand in a written segment. -/
def isSegmentChar (c : Char) : Bool :=
  c.toNat < 0x80 && (isUnreserved (UInt8.ofNat c.toNat) || c == '%')

theorem lt_of_isUnreserved {b : UInt8} (h : isUnreserved b = true) : b.toNat < 0x80 := by
  have hall : ∀ n < 256, isUnreserved (UInt8.ofNat n) = true → n < 0x80 := by decide +kernel
  have hb := hall b.toNat b.toNat_lt
  rw [UInt8.ofNat_toNat] at hb
  exact hb h

theorem isUnreserved_upper {n : Nat} (h : n < 16) :
    isUnreserved (UInt8.ofNat (Hex.upper n).toNat) = true := by
  have hall : ∀ m : Fin 16, isUnreserved (UInt8.ofNat (Hex.upper m).toNat) = true := by decide
  exact hall ⟨n, h⟩

theorem mem_encodeBytes_isUnreserved {b : UInt8} {bs : Bytes} (h : b ∈ encodeBytes isUnreserved bs) :
    isUnreserved b = true ∨ b = 0x25 := by
  rcases mem_encodeBytes h with hb | hb | ⟨n, hn, rfl⟩
  · exact Or.inl hb
  · exact Or.inr hb
  · exact Or.inl (isUnreserved_upper hn)

theorem lt_of_mem_encodeBytes {b : UInt8} {bs : Bytes} (h : b ∈ encodeBytes isUnreserved bs) :
    b.toNat < 0x80 := by
  rcases mem_encodeBytes_isUnreserved h with hb | rfl
  · exact lt_of_isUnreserved hb
  · decide

@[simp] theorem decodeSegment_encodeSegment (s : String) : decodeSegment (encodeSegment s) = s := by
  have htext : Utf8.encode (encodeSegment s) = encodeBytes isUnreserved (Utf8.encode s) :=
    encode_text fun b hb => lt_of_mem_encodeBytes hb
  have hread : decodeBytes (encodeBytes isUnreserved (Utf8.encode s) ++ []) = _ :=
    decodeBytes_encodeBytes rfl (Utf8.encode s) []
  rw [List.append_nil, decodeBytes, List.append_nil] at hread
  rw [decodeSegment, htext, hread, Utf8.decode?_encode]

theorem isSegmentChar_of_mem {s : String} {c : Char} (h : c ∈ (encodeSegment s).toList) :
    isSegmentChar c = true := by
  rw [encodeSegment, encodeText, toList_text] at h
  obtain ⟨b, hb, rfl⟩ := List.mem_map.mp h
  have hlt := lt_of_mem_encodeBytes hb
  rcases mem_encodeBytes_isUnreserved hb with hu | rfl
  · simp [isSegmentChar, toNat_charOf hlt, hlt, hu]
  · decide

theorem not_mem_encodeSegment {s : String} {c : Char} (h : isSegmentChar c = false) :
    c ∉ (encodeSegment s).toList := by
  intro hc
  rw [isSegmentChar_of_mem hc] at h
  cases h

/-! ## The form of a written segment -/

def IsUnreservedChar (c : Char) : Prop := c.isAlphanum = true ∨ c ∈ ['-', '.', '_', '~']

def IsUpperHexDigit (c : Char) : Prop := c.isDigit = true ∨ c ∈ ['A', 'B', 'C', 'D', 'E', 'F']

instance : DecidablePred IsUnreservedChar := fun c =>
  inferInstanceAs (Decidable (c.isAlphanum = true ∨ c ∈ ['-', '.', '_', '~']))

instance : DecidablePred IsUpperHexDigit := fun c =>
  inferInstanceAs (Decidable (c.isDigit = true ∨ c ∈ ['A', 'B', 'C', 'D', 'E', 'F']))

/-- Unreserved characters and whole escapes, one after the other. -/
inductive Written : List Char → Prop where
  | nil : Written []
  | plain {c : Char} {cs : List Char} (hc : IsUnreservedChar c) (h : Written cs) : Written (c :: cs)
  | escape {hi lo : Char} {cs : List Char} (hhi : IsUpperHexDigit hi) (hlo : IsUpperHexDigit lo)
      (h : Written cs) : Written ('%' :: hi :: lo :: cs)

theorem isUnreservedChar_charOf {b : UInt8} (h : isUnreserved b = true) :
    IsUnreservedChar (Char.ofNat b.toNat) := by
  have hall : ∀ n < 256, isUnreserved (UInt8.ofNat n) = true → IsUnreservedChar (Char.ofNat n) := by
    decide +kernel
  have hb := hall b.toNat b.toNat_lt
  rw [UInt8.ofNat_toNat] at hb
  exact hb h

theorem isUpperHexDigit_upper {n : Nat} (h : n < 16) :
    IsUpperHexDigit (Char.ofNat (UInt8.ofNat (Hex.upper n).toNat).toNat) := by
  have hall : ∀ m : Fin 16, IsUpperHexDigit (Char.ofNat (UInt8.ofNat (Hex.upper m).toNat).toNat) := by
    decide
  exact hall ⟨n, h⟩

theorem written_encodeBytes (bs : Bytes) :
    Written ((encodeBytes isUnreserved bs).map fun b => Char.ofNat b.toNat) := by
  induction bs with
  | nil => exact .nil
  | cons b bs ih =>
      have hb : b.toNat < 256 := b.toNat_lt
      rw [encodeBytes, List.flatMap_cons, ← encodeBytes]
      split
      · next hkeep => exact .plain (isUnreservedChar_charOf hkeep) ih
      · exact .escape (isUpperHexDigit_upper (by omega)) (isUpperHexDigit_upper (by omega)) ih

theorem written_encodeSegment (s : String) : Written (encodeSegment s).toList := by
  rw [encodeSegment, encodeText, toList_text]
  exact written_encodeBytes (Utf8.encodeChars s.toList)

theorem encodeBytes_of_keep {keep : UInt8 → Bool} {bs : Bytes} (h : ∀ b ∈ bs, keep b = true) :
    encodeBytes keep bs = bs := by
  induction bs with
  | nil => rfl
  | cons b bs ih =>
      rw [encodeBytes, List.flatMap_cons, if_pos (h b List.mem_cons_self)]
      exact congrArg (b :: ·) (ih fun b' hb' => h b' (List.mem_cons_of_mem b hb'))

theorem encodeSegment_of_unreserved {s : String}
    (h : ∀ c ∈ s.toList, c.toNat < 0x80 ∧ isUnreserved (UInt8.ofNat c.toNat) = true) :
    encodeSegment s = s := by
  have hbytes : Utf8.encodeChars s.toList = s.toList.map fun c => UInt8.ofNat c.toNat :=
    Utf8.encodeChars_ascii fun c hc => (h c hc).1
  have hkeep : ∀ b ∈ s.toList.map (fun c => UInt8.ofNat c.toNat), isUnreserved b = true := by
    intro b hb
    obtain ⟨c, hc, rfl⟩ := List.mem_map.mp hb
    exact (h c hc).2
  have hchar (c : Char) (hc : c ∈ s.toList) : Char.ofNat (UInt8.ofNat c.toNat).toNat = c := by
    have hlt := (h c hc).1
    rw [Utf8.toNat_ofNat_of_lt (by omega), Char.ofNat_toNat]
  apply String.toList_inj.mp
  rw [encodeSegment, encodeText, hbytes, encodeBytes_of_keep hkeep, toList_text, List.map_map]
  exact (List.map_congr_left hchar).trans (List.map_id' _)

theorem encodeSegment_eq_iff {s t : String} (h : encodeSegment t = t) :
    encodeSegment s = t ↔ s = t := by
  constructor
  · intro hs
    calc
      s = decodeSegment (encodeSegment s) := (decodeSegment_encodeSegment s).symm
      _ = decodeSegment (encodeSegment t) := by rw [hs, h]
      _ = t := decodeSegment_encodeSegment t
  · rintro rfl
    exact h

end WebResource.Percent
