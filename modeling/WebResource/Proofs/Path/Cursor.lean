import Mathlib.Logic.Function.Iterate
import WebResource.Proofs.Path

namespace WebResource

/-!
# Routing a path

A cursor over a request path moves through the clean path once, segment by segment. Its two texts,
the path behind it and the path before it, are clean at every moment, so the next segment can be
read from the second one alone, and moved to the first.
-/

namespace Path

/-- The texts between the slashes of a path that are not empty. -/
def parts (path : String) : List String := (Text.pieces '/' path).filter (· ≠ "")

/-- The text between the first two slashes of a clean path. -/
def first? (path : String) : Option String :=
  if path = "/" then none else some (Text.before '/' (String.ofList (path.toList.drop 1)))

/-- A clean path from its second slash on. -/
def rest (path : String) : String :=
  match Text.cut '/' (path.toList.drop 1) with
  | some (_, below) => String.ofList ('/' :: below)
  | none => "/"

def join (base segment : String) : String :=
  if base = "/" then "/" ++ segment else base ++ "/" ++ segment

variable {s : String} {ss : List String}

theorem toList_render (ss : List String) :
    (render ss).toList = '/' :: Text.joinWith '/' (ss.map String.toList) :=
  String.toList_ofList

theorem render_nil : render [] = "/" := by decide

theorem render_cons_ne (h : IsSegment s.toList) (ss : List String) : render (s :: ss) ≠ "/" := by
  intro heq
  obtain ⟨c, cs, hs⟩ := List.exists_cons_of_ne_nil h.1.1
  have hchars := congrArg String.toList heq
  rw [toList_render, List.map_cons, hs] at hchars
  cases ss <;> simp [Text.joinWith] at hchars

/-- The segments of a path can be read off its text. -/
theorem parts_render (h : ∀ s ∈ ss, IsSegment s.toList) : parts (render ss) = ss := by
  have hne : ∀ s ∈ ss, s ≠ "" := fun s hs heq => (h s hs).1.1 (congrArg String.toList heq)
  have hsplit : Text.splitOn '/' ('/' :: Text.joinWith '/' (ss.map String.toList)) =
      [] :: Text.splitOn '/' (Text.joinWith '/' (ss.map String.toList)) :=
    Text.splitOn_append_cons [] _
  rw [parts, Text.pieces, toList_render, hsplit]
  cases ss with
  | nil => simp [Text.joinWith, Text.splitOn]
  | cons s ss =>
      have hslash : ∀ p ∈ (s :: ss).map String.toList, '/' ∉ p :=
        List.forall_mem_map.mpr fun s hs => (h s hs).2
      have hjoin : Text.splitOn '/' (Text.joinWith '/' ((s :: ss).map String.toList)) =
          (s :: ss).map String.toList := Text.splitOn_joinWith (List.cons_ne_nil _ _) hslash
      rw [hjoin, List.map_cons, List.map_map, List.filter_cons_of_neg (by simp)]
      have hid : (s :: ss).map (String.ofList ∘ String.toList) = s :: ss :=
        (List.map_congr_left fun s _ => String.ofList_toList).trans (List.map_id _)
      rw [hid, List.filter_eq_self]
      exact fun s hs => decide_eq_true (hne s hs)

theorem parts_clean (path : String) : parts (clean path) = segments path :=
  parts_render fun _ hs => isSegment_of_mem_segments hs

/-! ## Reading the next segment from the text -/

theorem cut_render_cons (h : IsSegment s.toList) (ss : List String) :
    Text.cut '/' ((render (s :: ss)).toList.drop 1) =
      match ss with
      | [] => none
      | t :: ts => some (s.toList, Text.joinWith '/' ((t :: ts).map String.toList)) := by
  rw [toList_render, List.drop_one, List.tail_cons]
  cases ss with
  | nil => exact Text.cut_eq_none_iff.mpr h.2
  | cons t ts => exact Text.cut_append_cons h.2 _

theorem first?_render_nil : first? (render []) = none := if_pos render_nil

theorem first?_render_cons (h : IsSegment s.toList) (ss : List String) :
    first? (render (s :: ss)) = some s := by
  rw [first?, if_neg (render_cons_ne h ss), Text.before, String.toList_ofList, cut_render_cons h]
  cases ss with
  | nil => simp [toList_render, Text.joinWith]
  | cons t ts => simp

theorem rest_render_nil : rest (render []) = render [] := by decide

theorem rest_render_cons (h : IsSegment s.toList) (ss : List String) :
    rest (render (s :: ss)) = render ss := by
  rw [rest, cut_render_cons h]
  cases ss with
  | nil => exact render_nil.symm
  | cons t ts => rfl

theorem joinWith_concat {ps : List (List Char)} (hne : ps ≠ []) (p : List Char) :
    Text.joinWith '/' (ps ++ [p]) = Text.joinWith '/' ps ++ '/' :: p := by
  induction ps with
  | nil => exact absurd rfl hne
  | cons q qs ih =>
      cases qs with
      | nil => simp [Text.joinWith]
      | cons r rs =>
          have hrest := ih (List.cons_ne_nil r rs)
          simp only [List.cons_append, Text.joinWith, List.append_assoc] at hrest ⊢
          rw [hrest]

theorem join_render (h : ∀ s ∈ ss, IsSegment s.toList) (s : String) :
    join (render ss) s = render (ss ++ [s]) := by
  apply String.toList_inj.mp
  rw [toList_render, List.map_append, List.map_singleton]
  cases ss with
  | nil =>
      rw [join, if_pos render_nil, String.toList_append]
      simp [Text.joinWith]
  | cons t ts =>
      have hne : (t :: ts).map String.toList ≠ [] := by simp
      rw [join, if_neg (render_cons_ne (h t List.mem_cons_self) ts), joinWith_concat hne,
        String.toList_append, String.toList_append, toList_render, List.append_assoc]
      rfl

end Path

namespace PathCursor

/-- The cursor after so many shifts. -/
def shifted (cursor : PathCursor) (k : Nat) : PathCursor := (fun c => c.shift.2)^[k] cursor

/-- The two texts of a cursor alone tell what comes next, and how they change. -/
structure Legible (cursor : PathCursor) : Prop where
  peek_eq : cursor.peek = Path.first? cursor.pathLeft
  isExhausted_iff : cursor.isExhausted = true ↔ cursor.pathLeft = "/"
  pathLeft_shift : cursor.shift.2.pathLeft = Path.rest cursor.pathLeft
  current_shift : cursor.shift.2.current =
    cursor.shift.1.elim cursor.current fun segment => Path.join cursor.current segment

/-- A cursor that has consumed `k` of the segments of a clean path, or all of them. -/
structure Consumed (cursor : PathCursor) (segments : List String) (k : Nat) : Prop extends
    Legible cursor where
  parts : Path.parts cursor.current ++ Path.parts cursor.pathLeft = segments
  parts_current : Path.parts cursor.current = segments.take k
  clean_current : Path.clean cursor.current = cursor.current
  clean_pathLeft : Path.clean cursor.pathLeft = cursor.pathLeft
  peek_eq_shift : cursor.peek = cursor.shift.1
  shift_eq : cursor.shift.1 = segments[k]?
  exhausted_iff : cursor.isExhausted = true ↔ segments.length ≤ k

theorem shifted_succ (cursor : PathCursor) (k : Nat) :
    cursor.shifted (k + 1) = (cursor.shifted k).shift.2 :=
  Function.iterate_succ_apply' _ k cursor

theorem shifted_start (u : String) (k : Nat) :
    (start u).shifted k = ⟨u, (Path.segments u).take k, (Path.segments u).drop k⟩ := by
  induction k with
  | zero => rfl
  | succ k ih =>
      rw [shifted_succ, ih]
      cases hleft : (Path.segments u).drop k with
      | nil =>
          have hle : (Path.segments u).length ≤ k := List.drop_eq_nil_iff.mp hleft
          rw [List.take_of_length_le (Nat.le_succ_of_le hle), List.take_of_length_le hle,
            List.drop_of_length_le (Nat.le_succ_of_le hle)]
          rfl
      | cons s left =>
          have hk : (Path.segments u)[k]? = some s := by
            rw [← List.head?_drop, hleft, List.head?_cons]
          have htail : (Path.segments u).drop (k + 1) = left := by
            rw [← List.tail_drop, hleft, List.tail_cons]
          rw [List.take_add_one, hk, htail]
          rfl

theorem shift_fst (cursor : PathCursor) : cursor.shift.1 = cursor.left.head? := by
  unfold shift
  split <;> next h => rw [h]; rfl

section Segments

variable {u : String} {passed left : List String}

theorem legible (hpassed : ∀ s ∈ passed, Path.IsSegment s.toList)
    (hleft : ∀ s ∈ left, Path.IsSegment s.toList) : Legible ⟨u, passed, left⟩ := by
  cases left with
  | nil => exact ⟨Path.first?_render_nil.symm, iff_of_true rfl Path.render_nil,
      Path.rest_render_nil.symm, rfl⟩
  | cons s left =>
      have hs : Path.IsSegment s.toList := hleft s List.mem_cons_self
      refine ⟨(Path.first?_render_cons hs left).symm, ?_, (Path.rest_render_cons hs left).symm,
        (Path.join_render hpassed s).symm⟩
      exact iff_of_false Bool.false_ne_true (Path.render_cons_ne hs left)

theorem consumed_split {segments : List String} (h : ∀ s ∈ segments, Path.IsSegment s.toList) (k : Nat) :
    Consumed ⟨u, segments.take k, segments.drop k⟩ segments k := by
  have hpassed : ∀ s ∈ segments.take k, Path.IsSegment s.toList :=
    fun s hs => h s (List.mem_of_mem_take hs)
  have hleft : ∀ s ∈ segments.drop k, Path.IsSegment s.toList :=
    fun s hs => h s (List.mem_of_mem_drop hs)
  refine ⟨legible hpassed hleft, ?_, ?_, ?_, ?_, ?_, ?_, ?_⟩
  · rw [current, pathLeft, Path.parts_render hpassed, Path.parts_render hleft, List.take_append_drop]
  · exact Path.parts_render hpassed
  · exact Path.clean_render hpassed
  · exact Path.clean_render hleft
  · exact (shift_fst _).symm
  · rw [shift_fst, List.head?_drop]
  · rw [isExhausted, List.isEmpty_iff, List.drop_eq_nil_iff]

end Segments

/-- However often a cursor is shifted, it has consumed the first segments of the clean path, each of
them once. Cleaning a path is cleaning what stands before a slash and then the whole, and cleaning
twice is cleaning once. -/
theorem consumed_shifted (u : String) :
    (∀ k, Consumed ((start u).shifted k) (Path.parts (Path.clean u)) k) ∧
      (∀ a b, Path.clean (a ++ "/" ++ b) = Path.clean (Path.clean a ++ "/" ++ b)) ∧
        Path.clean (Path.clean u) = Path.clean u := by
  refine ⟨fun k => ?_, Path.clean_append, Path.clean_clean u⟩
  rw [shifted_start, Path.parts_clean]
  exact consumed_split (fun s hs => Path.isSegment_of_mem_segments hs) k

end PathCursor

end WebResource
