import WebResource.Proofs.Text.Percent
import WebResource.Proofs.Text.Split
import WebResource.Text.Form

namespace WebResource.Form

/-!
# Forms are read back

Neither the sign between two fields nor the one between a name and its value stands in a text that
has been written, so a form is cut where it was joined.
-/

/-- A byte that stands for itself once plus signs have become spaces again. -/
def keeps (b : UInt8) : Bool := b == 0x20 || isPlain b

/-- The bytes that may stand in a text that has been written. -/
def isWritten (b : UInt8) : Bool := b == 0x2B || b == 0x25 || isPlain b

theorem upper_cases {n : Nat} (h : n < 16) :
    isPlain (UInt8.ofNat (Hex.upper n).toNat) = true ∧ UInt8.ofNat (Hex.upper n).toNat ≠ 0x2B := by
  have hall : ∀ m : Fin 16, isPlain (UInt8.ofNat (Hex.upper m).toNat) = true ∧
      UInt8.ofNat (Hex.upper m).toNat ≠ 0x2B := by decide
  exact hall ⟨n, h⟩

theorem plusToSpace_escape (b : UInt8) : plusToSpace (Percent.escape b) = Percent.escape b := by
  have hb : b.toNat < 256 := b.toNat_lt
  have hhi := (upper_cases (n := b.toNat / 16) (by omega)).2
  have hlo := (upper_cases (n := b.toNat % 16) (by omega)).2
  simp [plusToSpace, Percent.escape, hhi, hlo]

theorem plusToSpace_encodeByte (b : UInt8) :
    plusToSpace (encodeByte b) = if keeps b then [b] else Percent.escape b := by
  rw [encodeByte]
  by_cases hspace : b = 0x20
  · subst hspace
    rfl
  by_cases hplain : isPlain b = true
  · have hplus : b ≠ 0x2B := by
      rintro rfl
      exact absurd hplain (by decide)
    simp [hspace, hplain, keeps, plusToSpace, hplus]
  · have hkeeps : keeps b = false := by simp [keeps, hspace, hplain]
    rw [if_neg hspace, if_neg hplain, hkeeps, plusToSpace_escape]
    rfl

theorem plusToSpace_flatMap (bs : Bytes) :
    plusToSpace (bs.flatMap encodeByte) = Percent.encodeBytes keeps bs := by
  induction bs with
  | nil => rfl
  | cons b bs ih =>
      have hcons : Percent.encodeBytes keeps (b :: bs) =
          (if keeps b then [b] else Percent.escape b) ++ Percent.encodeBytes keeps bs :=
        List.flatMap_cons
      rw [hcons, ← ih, ← plusToSpace_encodeByte, List.flatMap_cons]
      exact List.map_append

@[simp] theorem decodeText_encodeText (s : String) : decodeText (encodeText s) = s := by
  have hread : Percent.decodeBytes (Percent.encodeBytes keeps (Utf8.encode s) ++ []) = _ :=
    Percent.decodeBytes_encodeBytes rfl (Utf8.encode s) []
  rw [List.append_nil, Percent.decodeBytes, List.append_nil] at hread
  rw [decodeText, encodeText, plusToSpace_flatMap, hread, Utf8.decodeLossy_encode]

theorem isWritten_of_mem {s : String} {b : UInt8} (h : b ∈ encodeText s) : isWritten b = true := by
  obtain ⟨a, -, hb⟩ := List.mem_flatMap.mp h
  have ha : a.toNat < 256 := a.toNat_lt
  rw [encodeByte] at hb
  split at hb
  · rw [List.mem_singleton] at hb
    exact hb ▸ rfl
  split at hb
  · next hplain =>
      rw [List.mem_singleton] at hb
      simp [isWritten, hb, hplain]
  · simp only [Percent.escape, List.mem_cons, List.not_mem_nil, or_false] at hb
    rcases hb with rfl | rfl | rfl
    · rfl
    · simp [isWritten, (upper_cases (n := a.toNat / 16) (by omega)).1]
    · simp [isWritten, (upper_cases (n := a.toNat % 16) (by omega)).1]

theorem notMem_encodeText {b : UInt8} (h : isWritten b = false) (s : String) :
    b ∉ encodeText s := by
  intro hb
  rw [isWritten_of_mem hb] at h
  cases h

theorem decodePair_encodePair (p : String × String) : decodePair (encodePair p) = p := by
  have hname : (0x3D : UInt8) ∉ encodeText p.1 := notMem_encodeText rfl p.1
  rw [decodePair, encodePair, Text.cut_append_cons hname]
  simp

theorem notMem_encodePair (p : String × String) : (0x26 : UInt8) ∉ encodePair p := by
  intro h
  rcases List.mem_append.mp h with h | h
  · exact notMem_encodeText rfl p.1 h
  · rcases List.mem_cons.mp h with h | h
    · exact absurd h (by decide)
    · exact notMem_encodeText rfl p.2 h

@[simp] theorem decode_encode (ps : List (String × String)) : decode (encode ps) = ps := by
  cases ps with
  | nil => rfl
  | cons p ps =>
      have hsplit : Text.splitOn 0x26 (encode (p :: ps)) = (p :: ps).map encodePair := by
        apply Text.splitOn_joinWith (by simp)
        intro piece hpiece
        obtain ⟨q, -, rfl⟩ := List.mem_map.mp hpiece
        exact notMem_encodePair q
      have hfull : ∀ piece ∈ (p :: ps).map encodePair, (!piece.isEmpty) = true := by
        intro piece hpiece
        obtain ⟨q, -, rfl⟩ := List.mem_map.mp hpiece
        simp [encodePair]
      rw [decode, hsplit, List.filter_eq_self.mpr hfull, List.map_map]
      refine (List.map_congr_left fun q _ => ?_).trans (List.map_id _)
      exact decodePair_encodePair q

end WebResource.Form
