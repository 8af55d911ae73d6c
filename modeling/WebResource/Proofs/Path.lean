import WebResource.Path
import WebResource.Proofs.Text.Split

namespace WebResource.Path

/-!
# Clean paths

Cleaning a path that goes on behind a slash cleans the part before the slash first. So a segment
that is not empty, `.` or `..` becomes the last segment of the path; the three others do not.
-/

/-- A segment that stays in a clean path. -/
def IsPlain (s : List Char) : Prop := s ≠ [] ∧ s ≠ ['.'] ∧ s ≠ ['.', '.']

theorem push_of_isPlain {s : List Char} (h : IsPlain s) (passed : List (List Char)) :
    push passed s = s :: passed := by
  rw [push, if_neg (not_or.mpr ⟨h.1, h.2.1⟩), if_neg h.2.2]

theorem cleanSegments_append (p q : List Char) :
    cleanSegments (p ++ '/' :: q) =
      ((Text.splitOn '/' q).foldl push (cleanSegments p).reverse).reverse := by
  rw [cleanSegments, Text.splitOn_append_cons, List.foldl_append, cleanSegments,
    List.reverse_reverse]

theorem cleanSegments_append_segment {s : List Char} (hs : '/' ∉ s) (p : List Char) :
    cleanSegments (p ++ '/' :: s) = (push (cleanSegments p).reverse s).reverse := by
  rw [cleanSegments_append, Text.splitOn_of_notMem hs]
  rfl

theorem cleanSegments_append_plain {s : List Char} (hs : '/' ∉ s) (h : IsPlain s) (p : List Char) :
    cleanSegments (p ++ '/' :: s) = cleanSegments p ++ [s] := by
  rw [cleanSegments_append_segment hs, push_of_isPlain h, List.reverse_cons, List.reverse_reverse]

theorem cleanSegments_append_slash (p : List Char) :
    cleanSegments (p ++ ['/']) = cleanSegments p := by
  rw [cleanSegments_append_segment List.not_mem_nil, push, if_pos (Or.inl rfl),
    List.reverse_reverse]

theorem segments_append_plain {s : List Char} (hs : '/' ∉ s) (h : IsPlain s) (p : List Char) :
    segments (String.ofList (p ++ '/' :: s)) =
      segments (String.ofList (p ++ ['/'])) ++ [String.ofList s] := by
  simp only [segments, String.toList_ofList]
  rw [cleanSegments_append_plain hs h, cleanSegments_append_slash, List.map_append]
  rfl

theorem segments_append_skipped {s : List Char} (h : s = [] ∨ s = ['.']) (p : List Char) :
    segments (String.ofList (p ++ '/' :: s)) = segments (String.ofList (p ++ ['/'])) := by
  have hs : '/' ∉ s := by rcases h with rfl | rfl <;> decide
  simp only [segments, String.toList_ofList]
  rw [cleanSegments_append_segment hs, push, if_pos h, List.reverse_reverse,
    cleanSegments_append_slash]

theorem segments_append_parent (p : List Char) :
    segments (String.ofList (p ++ '/' :: ['.', '.'])) =
      (segments (String.ofList (p ++ ['/']))).dropLast := by
  simp only [segments, String.toList_ofList]
  rw [cleanSegments_append_segment (by decide), push, if_neg (by decide), if_pos rfl,
    List.tail_reverse, List.reverse_reverse, cleanSegments_append_slash, List.map_dropLast]

/-! ## What a clean path is made of -/

theorem mem_or_mem_of_mem_foldl {ss passed : List (List Char)} {s : List Char}
    (h : s ∈ ss.foldl push passed) : s ∈ ss ∨ s ∈ passed := by
  induction ss generalizing passed with
  | nil => exact Or.inr h
  | cons t ss ih =>
      rcases ih h with hs | hs
      · exact Or.inl (List.mem_cons_of_mem t hs)
      · unfold push at hs
        split at hs
        · exact Or.inr hs
        · split at hs
          · exact Or.inr (List.mem_of_mem_tail hs)
          · rcases List.mem_cons.mp hs with rfl | hs
            · exact Or.inl List.mem_cons_self
            · exact Or.inr hs

/-- Segments hold nothing that the path does not. -/
theorem mem_of_mem_segments {path s : String} {c : Char} (hs : s ∈ segments path) (hc : c ∈ s.toList) :
    c ∈ path.toList := by
  obtain ⟨cs, hcs, rfl⟩ := List.mem_map.mp hs
  rw [String.toList_ofList] at hc
  rcases mem_or_mem_of_mem_foldl (List.mem_reverse.mp hcs) with h | h
  · exact Text.mem_of_mem_splitOn h hc
  · cases h

theorem mem_of_mem_render {ss : List String} {c : Char} (h : c ∈ (render ss).toList) :
    c = '/' ∨ ∃ s ∈ ss, c ∈ s.toList := by
  rw [render, String.toList_ofList] at h
  rcases List.mem_cons.mp h with h | h
  · exact Or.inl h
  · refine (Text.mem_joinWith h).imp_right ?_
    rintro ⟨cs, hcs, hc⟩
    obtain ⟨s, hs, rfl⟩ := List.mem_map.mp hcs
    exact ⟨s, hs, hc⟩

/-! ## Cleaning twice -/

/-- A segment as a path holds it: plain, and within its slashes. -/
def IsSegment (s : List Char) : Prop := IsPlain s ∧ '/' ∉ s

theorem isSegment_of_mem_foldl {ss passed : List (List Char)} (hss : ∀ s ∈ ss, '/' ∉ s)
    (hpassed : ∀ s ∈ passed, IsSegment s) : ∀ s ∈ ss.foldl push passed, IsSegment s := by
  induction ss generalizing passed with
  | nil => exact hpassed
  | cons s ss ih =>
      obtain ⟨hs, hss⟩ := List.forall_mem_cons.mp hss
      refine ih hss ?_
      unfold push
      split
      · exact hpassed
      · next hskip =>
          split
          · exact fun t ht => hpassed t (List.mem_of_mem_tail ht)
          · next hparent =>
              obtain ⟨hnil, hdot⟩ := not_or.mp hskip
              exact List.forall_mem_cons.mpr ⟨⟨⟨hnil, hdot, hparent⟩, hs⟩, hpassed⟩

theorem isSegment_of_mem_cleanSegments {path s : List Char} (h : s ∈ cleanSegments path) :
    IsSegment s :=
  isSegment_of_mem_foldl (fun _ hs => Text.notMem_of_mem_splitOn hs)
    (fun _ ht => absurd ht List.not_mem_nil) s (List.mem_reverse.mp h)

theorem foldl_push_of_isSegment {ss : List (List Char)} (h : ∀ s ∈ ss, IsSegment s)
    (passed : List (List Char)) : ss.foldl push passed = ss.reverse ++ passed := by
  induction ss generalizing passed with
  | nil => rfl
  | cons s ss ih =>
      obtain ⟨hs, hss⟩ := List.forall_mem_cons.mp h
      rw [List.foldl_cons, push_of_isPlain hs.1, ih hss, List.reverse_cons, List.append_assoc,
        List.singleton_append]

theorem cleanSegments_joinWith {ss : List (List Char)} (h : ∀ s ∈ ss, IsSegment s) :
    cleanSegments ('/' :: Text.joinWith '/' ss) = ss := by
  have hcons := cleanSegments_append [] (Text.joinWith '/' ss)
  rw [List.nil_append] at hcons
  rw [hcons]
  cases ss with
  | nil => rfl
  | cons s ss =>
      rw [Text.splitOn_joinWith (List.cons_ne_nil s ss) fun t ht => (h t ht).2,
        foldl_push_of_isSegment h]
      simp [cleanSegments, Text.splitOn, push]

theorem segments_render {ss : List String} (h : ∀ s ∈ ss, IsSegment s.toList) :
    segments (render ss) = ss := by
  have hchars : ∀ s ∈ ss.map String.toList, IsSegment s := List.forall_mem_map.mpr h
  rw [segments, render, String.toList_ofList, cleanSegments_joinWith hchars, List.map_map]
  exact (List.map_congr_left fun s _ => String.ofList_toList).trans (List.map_id ss)

theorem isSegment_of_mem_segments {path s : String} (h : s ∈ segments path) : IsSegment s.toList := by
  obtain ⟨cs, hcs, rfl⟩ := List.mem_map.mp h
  rw [String.toList_ofList]
  exact isSegment_of_mem_cleanSegments hcs

/-- A clean path is the path of its own segments. -/
@[simp] theorem segments_clean (path : String) : segments (clean path) = segments path :=
  segments_render fun _ hs => isSegment_of_mem_segments hs

theorem clean_render {ss : List String} (h : ∀ s ∈ ss, IsSegment s.toList) :
    clean (render ss) = render ss := by
  rw [clean, segments_render h]

@[simp] theorem clean_clean (path : String) : clean (clean path) = clean path :=
  clean_render fun _ hs => isSegment_of_mem_segments hs

theorem cleanSegments_clean (path : String) :
    cleanSegments (clean path).toList = cleanSegments path.toList := by
  have hinjective : Function.Injective String.ofList := fun _ _ h => String.ofList_injective h
  exact List.map_injective_iff.mpr hinjective (segments_clean path)

/-- What comes before a slash may be cleaned first, also where a `..` behind it goes up into it. -/
theorem clean_append (a b : String) : clean (a ++ "/" ++ b) = clean (clean a ++ "/" ++ b) := by
  have hchars (p : String) : (p ++ "/" ++ b).toList = p.toList ++ '/' :: b.toList := by
    rw [String.toList_append, String.toList_append, List.append_assoc]
    rfl
  rw [clean, clean, segments, segments, hchars, hchars, cleanSegments_append, cleanSegments_append,
    cleanSegments_clean]

end WebResource.Path
