import WebResource.Text.Utf8

namespace WebResource.Utf8

/-!
# UTF-8 is read back

Every character is read back from its encoding, whatever follows it, so strict and lossy reading
both invert the encoding. A byte below 0x80 is always a character by itself.
-/

theorem toNat_ofNat_of_lt {n : Nat} (h : n < 256) : (UInt8.ofNat n).toNat = n := by
  simp [Nat.mod_eq_of_lt h]

theorem toNat_bounds (c : Char) :
    c.toNat < 0xD800 ∨ (0xDFFF < c.toNat ∧ c.toNat < 0x110000) := c.valid

theorem decodeFrom_one {n : Nat} (h : n < 0x80) (bs : Bytes) :
    decodeFrom .idle (encodeNat n ++ bs) = (decodeFrom .idle bs).map (Char.ofNat n :: ·) := by
  have hb : (UInt8.ofNat n).toNat = n := toNat_ofNat_of_lt (by omega)
  have hlead : lead (UInt8.ofNat n) = .char (Char.ofNat n) := by
    simp only [lead, hb]
    rw [if_pos h]
  rw [encodeNat, if_pos h]
  simp only [List.cons_append, List.nil_append, decodeFrom, hlead]

theorem decodeFrom_two {n : Nat} (h : 0x80 ≤ n) (h' : n < 0x800) (bs : Bytes) :
    decodeFrom .idle (encodeNat n ++ bs) = (decodeFrom .idle bs).map (Char.ofNat n :: ·) := by
  have hb : (UInt8.ofNat (0xC0 + n / 64)).toNat = 0xC0 + n / 64 := toNat_ofNat_of_lt (by omega)
  have ht : (UInt8.ofNat (0x80 + n % 64)).toNat = 0x80 + n % 64 := toNat_ofNat_of_lt (by omega)
  have hlead : lead (UInt8.ofNat (0xC0 + n / 64)) = .opens (.inside 0 (n / 64) 0x80 0xBF) := by
    simp only [lead, hb]
    rw [if_neg (by omega), if_neg (by omega), if_pos (by omega), Nat.add_sub_cancel_left]
  have hn : n / 64 * 64 + (0x80 + n % 64) % 64 = n := by omega
  rw [encodeNat, if_neg (by omega), if_pos h']
  simp only [List.cons_append, List.nil_append, decodeFrom, hlead, ht]
  rw [if_pos (by omega), hn]

/-- The lead of three bytes. Its bounds on the second byte let every character pass: the code
points from 0xD800 to 0xDFFF, which they keep out, are no characters. -/
theorem lead_three {n : Nat} (h : 0x800 ≤ n) (h' : n < 0x10000) (hs : n < 0xD800 ∨ 0xDFFF < n) :
    ∃ lo hi, lead (UInt8.ofNat (0xE0 + n / 4096)) = .opens (.inside 1 (n / 4096) lo hi) ∧
      lo ≤ 0x80 + n / 64 % 64 ∧ 0x80 + n / 64 % 64 ≤ hi := by
  have hb : (UInt8.ofNat (0xE0 + n / 4096)).toNat = 0xE0 + n / 4096 := toNat_ofNat_of_lt (by omega)
  simp only [lead, hb]
  rw [if_neg (by omega), if_neg (by omega), if_neg (by omega)]
  by_cases he : n / 4096 = 0
  · exact ⟨0xA0, 0xBF, by simp [he], by omega, by omega⟩
  · rw [if_neg (by omega)]
    by_cases hd : n / 4096 = 0xD
    · exact ⟨0x80, 0x9F, by simp [hd], by omega, by omega⟩
    · rw [if_neg (by omega), if_pos (by omega), Nat.add_sub_cancel_left]
      exact ⟨0x80, 0xBF, rfl, by omega, by omega⟩

theorem decodeFrom_three {n : Nat} (h : 0x800 ≤ n) (h' : n < 0x10000)
    (hs : n < 0xD800 ∨ 0xDFFF < n) (bs : Bytes) :
    decodeFrom .idle (encodeNat n ++ bs) = (decodeFrom .idle bs).map (Char.ofNat n :: ·) := by
  obtain ⟨lo, hi, hlead, hlo, hhi⟩ := lead_three h h' hs
  have hm : (UInt8.ofNat (0x80 + n / 64 % 64)).toNat = 0x80 + n / 64 % 64 :=
    toNat_ofNat_of_lt (by omega)
  have ht : (UInt8.ofNat (0x80 + n % 64)).toNat = 0x80 + n % 64 := toNat_ofNat_of_lt (by omega)
  have hn : (n / 4096 * 64 + (0x80 + n / 64 % 64) % 64) * 64 + (0x80 + n % 64) % 64 = n := by omega
  rw [encodeNat, if_neg (by omega), if_neg (by omega), if_pos h']
  simp only [List.cons_append, List.nil_append, decodeFrom, hlead, hm, ht]
  rw [if_pos ⟨hlo, hhi⟩, if_pos (by omega), hn]

/-- The lead of four bytes, which keeps out what lies above 0x10FFFF. -/
theorem lead_four {n : Nat} (h : 0x10000 ≤ n) (h' : n < 0x110000) :
    ∃ lo hi, lead (UInt8.ofNat (0xF0 + n / 262144)) = .opens (.inside 2 (n / 262144) lo hi) ∧
      lo ≤ 0x80 + n / 4096 % 64 ∧ 0x80 + n / 4096 % 64 ≤ hi := by
  have hb : (UInt8.ofNat (0xF0 + n / 262144)).toNat = 0xF0 + n / 262144 :=
    toNat_ofNat_of_lt (by omega)
  simp only [lead, hb]
  rw [if_neg (by omega), if_neg (by omega), if_neg (by omega), if_neg (by omega),
    if_neg (by omega), if_neg (by omega)]
  by_cases he : n / 262144 = 0
  · exact ⟨0x90, 0xBF, by simp [he], by omega, by omega⟩
  · rw [if_neg (by omega)]
    by_cases hf : n / 262144 = 4
    · exact ⟨0x80, 0x8F, by simp [hf], by omega, by omega⟩
    · rw [if_pos (by omega), Nat.add_sub_cancel_left]
      exact ⟨0x80, 0xBF, rfl, by omega, by omega⟩

theorem decodeFrom_four {n : Nat} (h : 0x10000 ≤ n) (h' : n < 0x110000) (bs : Bytes) :
    decodeFrom .idle (encodeNat n ++ bs) = (decodeFrom .idle bs).map (Char.ofNat n :: ·) := by
  obtain ⟨lo, hi, hlead, hlo, hhi⟩ := lead_four h h'
  have hm : (UInt8.ofNat (0x80 + n / 4096 % 64)).toNat = 0x80 + n / 4096 % 64 :=
    toNat_ofNat_of_lt (by omega)
  have hm' : (UInt8.ofNat (0x80 + n / 64 % 64)).toNat = 0x80 + n / 64 % 64 :=
    toNat_ofNat_of_lt (by omega)
  have ht : (UInt8.ofNat (0x80 + n % 64)).toNat = 0x80 + n % 64 := toNat_ofNat_of_lt (by omega)
  have hn : ((n / 262144 * 64 + (0x80 + n / 4096 % 64) % 64) * 64 + (0x80 + n / 64 % 64) % 64) * 64
      + (0x80 + n % 64) % 64 = n := by omega
  rw [encodeNat, if_neg (by omega), if_neg (by omega), if_neg (by omega)]
  simp only [List.cons_append, List.nil_append, decodeFrom, hlead, hm, hm', ht]
  rw [if_pos ⟨hlo, hhi⟩, if_pos (by omega), if_pos (by omega), hn]

theorem decodeFrom_encodeChar (c : Char) (bs : Bytes) :
    decodeFrom .idle (encodeChar c ++ bs) = (decodeFrom .idle bs).map (c :: ·) := by
  have hc := toNat_bounds c
  have hread : decodeFrom .idle (encodeNat c.toNat ++ bs) =
      (decodeFrom .idle bs).map (Char.ofNat c.toNat :: ·) := by
    rcases Nat.lt_or_ge c.toNat 0x80 with h₁ | h₁
    · exact decodeFrom_one h₁ bs
    rcases Nat.lt_or_ge c.toNat 0x800 with h₂ | h₂
    · exact decodeFrom_two h₁ h₂ bs
    rcases Nat.lt_or_ge c.toNat 0x10000 with h₃ | h₃
    · exact decodeFrom_three h₂ h₃ (by omega) bs
    · exact decodeFrom_four h₃ (by omega) bs
  rwa [Char.ofNat_toNat] at hread

theorem decodeFrom_encodeChars (cs : List Char) (bs : Bytes) :
    decodeFrom .idle (encodeChars cs ++ bs) = (decodeFrom .idle bs).map (cs ++ ·) := by
  induction cs with
  | nil => simp [encodeChars]
  | cons c cs ih =>
      have hcons : encodeChars (c :: cs) = encodeChar c ++ encodeChars cs := by simp [encodeChars]
      rw [hcons, List.append_assoc, decodeFrom_encodeChar, ih, Option.map_map]
      rfl

@[simp] theorem decode?_encode (s : String) : decode? (encode s) = some s := by
  have h := decodeFrom_encodeChars s.toList []
  rw [List.append_nil] at h
  simp [decode?, encode, h, decodeFrom]

/-- What can be read strictly is read the same way if one is lenient. -/
theorem lossyFrom_of_decodeFrom {s : State} {bs : Bytes} {cs : List Char}
    (h : decodeFrom s bs = some cs) : lossyFrom s bs = cs := by
  fun_induction decodeFrom s bs generalizing cs with
  | case1 => simp_all [lossyFrom]
  | case2 => simp at h
  | case3 b bs c hlead ih =>
      obtain ⟨ds, hds, rfl⟩ := Option.map_eq_some_iff.mp h
      simp [lossyFrom, lossyLead, hlead, ih hds]
  | case4 b bs s hlead ih => simp [lossyFrom, lossyLead, hlead, ih h]
  | case5 => simp at h
  | case6 acc lo hi b bs hb read =>
      rename_i ih
      obtain ⟨ds, hds, rfl⟩ := Option.map_eq_some_iff.mp h
      rw [lossyFrom, if_pos hb]
      simp [read, ih hds]
  | case7 acc lo hi b bs hb read left =>
      rename_i ih
      rw [lossyFrom, if_pos hb]
      exact ih h
  | case8 => simp at h

@[simp] theorem decodeLossy_encode (s : String) : decodeLossy (encode s) = s := by
  obtain ⟨cs, hcs, hs⟩ := Option.map_eq_some_iff.mp (decode?_encode s)
  rw [decodeLossy, lossyFrom_of_decodeFrom hcs, hs]

/-! ## ASCII -/

theorem encodeChar_ascii {c : Char} (h : c.toNat < 0x80) : encodeChar c = [UInt8.ofNat c.toNat] := by
  rw [encodeChar, encodeNat, if_pos h]

theorem encodeChars_append (cs ds : List Char) :
    encodeChars (cs ++ ds) = encodeChars cs ++ encodeChars ds := by
  simp [encodeChars]

theorem encodeChars_ascii {cs : List Char} (h : ∀ c ∈ cs, c.toNat < 0x80) :
    encodeChars cs = cs.map fun c => UInt8.ofNat c.toNat := by
  induction cs with
  | nil => rfl
  | cons c cs ih =>
      have hcs := ih fun d hd => h d (List.mem_cons_of_mem c hd)
      rw [encodeChars, List.flatMap_cons, encodeChar_ascii (h c List.mem_cons_self)]
      simpa [encodeChars] using hcs

theorem utf8ByteSize_ascii {s : String} (h : ∀ c ∈ s.toList, c.toNat < 0x80) :
    s.utf8ByteSize = s.toList.length := by
  obtain ⟨cs, rfl⟩ : ∃ cs, s = String.ofList cs := ⟨s.toList, String.ofList_toList.symm⟩
  rw [String.toList_ofList] at *
  induction cs with
  | nil => rfl
  | cons c cs ih =>
      have hc : c.val ≤ 0x7F := Nat.le_of_lt_succ (h c List.mem_cons_self)
      have hsize : c.utf8Size = 1 := if_pos hc
      rw [String.ofList_cons, String.utf8ByteSize_append, String.utf8ByteSize_singleton, hsize,
        ih fun d hd => h d (List.mem_cons_of_mem c hd), List.length_cons, Nat.add_comm]

theorem le_of_mem_encodeChar {c : Char} (h : 0x80 ≤ c.toNat) {b : UInt8} (hb : b ∈ encodeChar c) :
    0x80 ≤ b.toNat := by
  have hc := toNat_bounds c
  unfold encodeChar encodeNat at hb
  rw [if_neg (by omega)] at hb
  split at hb
  · simp only [List.mem_cons, List.not_mem_nil, or_false] at hb
    rcases hb with rfl | rfl <;> rw [toNat_ofNat_of_lt (by omega)] <;> omega
  split at hb
  · simp only [List.mem_cons, List.not_mem_nil, or_false] at hb
    rcases hb with rfl | rfl | rfl <;> rw [toNat_ofNat_of_lt (by omega)] <;> omega
  · simp only [List.mem_cons, List.not_mem_nil, or_false] at hb
    rcases hb with rfl | rfl | rfl | rfl <;> rw [toNat_ofNat_of_lt (by omega)] <;> omega

end WebResource.Utf8
