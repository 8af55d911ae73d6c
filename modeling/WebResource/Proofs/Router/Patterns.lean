import Mathlib.Data.List.Nodup
import WebResource.Router.Patterns

namespace WebResource.PatternTable

/-!
# The longest pattern

All patterns that match a path are fronts of one text, the path with a slash behind it. So no two of
them are of the same length, and the longest one does not depend on the order of a table.
-/

variable {H : Type} {m m' other : PatternTable H} {path p q : String}

/-- A pattern with a slash at its end matches its text without the slash and all that starts with it;
any other pattern matches itself. -/
def Matches (pattern path : String) : Prop :=
  (∃ tree, pattern = tree ++ "/" ∧ (path = tree ∨ ∃ below, path = pattern ++ below)) ∨
    (¬∃ tree, pattern = tree ++ "/") ∧ path = pattern

/-! ## Matching -/

theorem isSubtree_iff : isSubtree p.toList = true ↔ ∃ tree, p = tree ++ "/" := by
  rw [isSubtree, beq_iff_eq, List.getLast?_eq_some_iff]
  constructor
  · rintro ⟨tree, htree⟩
    refine ⟨String.ofList tree, String.toList_inj.mp ?_⟩
    rw [htree, String.toList_append, String.toList_ofList]
    rfl
  · rintro ⟨tree, rfl⟩
    exact ⟨tree.toList, String.toList_append⟩

theorem isPrefixOf_iff : p.toList.isPrefixOf path.toList = true ↔ ∃ below, path = p ++ below := by
  rw [List.isPrefixOf_iff_prefix]
  constructor
  · rintro ⟨below, hbelow⟩
    refine ⟨String.ofList below, String.toList_inj.mp ?_⟩
    rw [← hbelow, String.toList_append, String.toList_ofList]
  · rintro ⟨below, rfl⟩
    exact ⟨below.toList, String.toList_append.symm⟩

theorem matches_iff (pattern path : String) : «matches» pattern path = true ↔ Matches pattern path := by
  rw [«matches», matchesChars]
  by_cases htree : isSubtree pattern.toList = true
  · obtain ⟨tree, rfl⟩ := isSubtree_iff.mp htree
    have hdrop : (tree ++ "/").toList.dropLast = tree.toList := by
      rw [String.toList_append]
      exact List.dropLast_concat
    rw [if_pos htree, Bool.or_eq_true, isPrefixOf_iff, hdrop, beq_iff_eq, String.toList_inj]
    constructor
    · exact fun h => Or.inl ⟨tree, rfl, h.symm⟩
    · rintro (⟨tree', htree', h⟩ | ⟨hno, -⟩)
      · obtain rfl := (String.append_left_inj "/").mp htree'
        exact h.symm
      · exact absurd ⟨tree, rfl⟩ hno
  · have hno : ¬∃ tree, pattern = tree ++ "/" := fun h => htree (isSubtree_iff.mpr h)
    rw [if_neg htree, beq_iff_eq, String.toList_inj]
    constructor
    · exact fun h => Or.inr ⟨hno, h⟩
    · rintro (⟨tree, h, -⟩ | ⟨-, h⟩)
      · exact absurd ⟨tree, h⟩ hno
      · exact h

/-- A pattern that matches a path is a front of the path with a slash behind it. -/
theorem Matches.front (h : Matches p path) : ∃ t, p ++ t = path ++ "/" := by
  rcases h with ⟨tree, rfl, rfl | ⟨below, rfl⟩⟩ | ⟨-, rfl⟩
  · exact ⟨"", String.append_empty⟩
  · exact ⟨below ++ "/", (String.append_assoc).symm⟩
  · exact ⟨"/", rfl⟩

theorem eq_of_append_eq {t : String} (h : p ++ t = q) (hsize : p.utf8ByteSize = q.utf8ByteSize) :
    p = q := by
  have hzero : t.utf8ByteSize = 0 := by
    rw [← h, String.utf8ByteSize_append] at hsize
    omega
  rw [← h, String.utf8ByteSize_eq_zero_iff.mp hzero, String.append_empty]

/-- Patterns of the same length that match one path are the same. -/
theorem Matches.eq_of_size (hp : Matches p path) (hq : Matches q path)
    (hsize : p.utf8ByteSize = q.utf8ByteSize) : p = q := by
  obtain ⟨t, ht⟩ := hp.front
  obtain ⟨u, hu⟩ := hq.front
  have hchars : p.toList ++ t.toList = q.toList ++ u.toList := by
    rw [← String.toList_append, ← String.toList_append, ht, hu]
  rcases List.append_eq_append_iff.mp hchars with ⟨x, hx, -⟩ | ⟨x, hx, -⟩
  · refine eq_of_append_eq (t := String.ofList x) (String.toList_inj.mp ?_) hsize
    rw [hx, String.toList_append, String.toList_ofList]
  · refine (eq_of_append_eq (t := String.ofList x) (String.toList_inj.mp ?_) hsize.symm).symm
    rw [hx, String.toList_append, String.toList_ofList]

/-! ## The best entry -/

/-- An entry that is among some, none of which has a longer pattern. -/
def IsLongest (es : List (String × H)) (e : String × H) : Prop :=
  e ∈ es ∧ ∀ f ∈ es, f.1.utf8ByteSize ≤ e.1.utf8ByteSize

def matching (path : String) (es : List (String × H)) : List (String × H) :=
  es.filter fun e => «matches» e.1 path

theorem mem_matching {es : List (String × H)} {e : String × H} :
    e ∈ matching path es ↔ e ∈ es ∧ Matches e.1 path := by
  rw [matching, List.mem_filter, matches_iff]

/-- An entry that is no longer than one of the others may join them. -/
theorem IsLongest.insert {es : List (String × H)} {b e f : String × H} (h : IsLongest es b)
    (he : e ∈ es) (hle : f.1.utf8ByteSize ≤ e.1.utf8ByteSize) : IsLongest (f :: es) b :=
  ⟨List.mem_cons_of_mem f h.1,
    List.forall_mem_cons.mpr ⟨Nat.le_trans hle (h.2 e he), h.2⟩⟩

theorem isLongest_congr {es es' : List (String × H)} (h : ∀ e, e ∈ es ↔ e ∈ es') (e : String × H) :
    IsLongest es e ↔ IsLongest es' e :=
  and_congr (h e) (forall_congr' fun f => by rw [h])

/-- The scan finds an entry if there is one to be found, and a longest one then. -/
theorem longest_spec (path : String) (best : Option (String × H)) (es : List (String × H)) :
    (longest path best es = none ∧ best.toList ++ matching path es = []) ∨
      ∃ e, longest path best es = some e ∧ IsLongest (best.toList ++ matching path es) e := by
  fun_induction longest path best es with
  | case1 best =>
      cases best with
      | none => exact Or.inl ⟨rfl, rfl⟩
      | some b => exact Or.inr ⟨b, rfl, List.mem_singleton_self b, by simp [matching]⟩
  | case2 e es ih =>
      have hsame : (if «matches» e.1 path = true then some e else none).toList ++ matching path es =
          matching path (e :: es) := by
        by_cases h : «matches» e.1 path = true <;> simp [matching, h]
      rw [hsame] at ih
      exact ih
  | case3 b e es ih =>
      refine Or.inr ?_
      rcases ih with ⟨-, hnil⟩ | ⟨f, hf, hlongest⟩
      · split at hnil <;> cases hnil
      refine ⟨f, hf, ?_⟩
      by_cases hmatch : «matches» e.1 path = true
      · have hcons : matching path (e :: es) = e :: matching path es := List.filter_cons_of_pos hmatch
        rw [hcons]
        by_cases hlt : b.1.utf8ByteSize < e.1.utf8ByteSize
        · have htaken : IsLongest (e :: matching path es) f := by simpa [hmatch, hlt] using hlongest
          exact htaken.insert List.mem_cons_self (Nat.le_of_lt hlt)
        · have hkept : IsLongest (b :: matching path es) f := by simpa [hmatch, hlt] using hlongest
          exact (isLongest_congr (fun _ => (List.Perm.swap b e _).mem_iff) f).mp
            (hkept.insert List.mem_cons_self (Nat.le_of_not_lt hlt))
      · have hcons : matching path (e :: es) = matching path es := List.filter_cons_of_neg hmatch
        rw [hcons]
        simpa [hmatch] using hlongest

theorem lookup_eq_none_iff : m.lookup path = none ↔ ∀ e ∈ m.entries, ¬Matches e.1 path := by
  have hnil : matching path m.entries = [] ↔ ∀ e ∈ m.entries, ¬Matches e.1 path := by
    rw [List.eq_nil_iff_forall_not_mem]
    exact forall_congr' fun e => by rw [mem_matching, not_and]
  rw [lookup, Option.map_eq_none_iff, ← hnil]
  rcases longest_spec path none m.entries with ⟨hnone, hmatching⟩ | ⟨e, he, hlongest⟩
  · exact iff_of_true hnone hmatching
  · refine iff_of_false (by simp [he]) fun hempty => ?_
    exact List.not_mem_nil (hempty ▸ hlongest.1)

/-- What a look-up gives, as long as no two entries have the same pattern. -/
theorem lookup_eq_some_iff (hm : (m.entries.map Prod.fst).Nodup) {h : H} :
    m.lookup path = some h ↔ ∃ p, IsLongest (matching path m.entries) (p, h) := by
  rw [lookup, Option.map_eq_some_iff]
  rcases longest_spec path none m.entries with ⟨hnone, hmatching⟩ | ⟨⟨q, g⟩, he, hlongest⟩
  · have hmatching : matching path m.entries = [] := hmatching
    simp [hnone, hmatching, IsLongest]
  have hlongest : IsLongest (matching path m.entries) (q, g) := hlongest
  constructor
  · rintro ⟨e, he', rfl⟩
    obtain rfl := Option.some.inj (he.symm.trans he')
    exact ⟨q, hlongest⟩
  · rintro ⟨p, hp⟩
    -- Both patterns are of the greatest length, so they are the same, and so are their entries.
    obtain ⟨hpmem, hpmatch⟩ := mem_matching.mp hp.1
    obtain ⟨hqmem, hqmatch⟩ := mem_matching.mp hlongest.1
    have hsize : p.utf8ByteSize = q.utf8ByteSize :=
      Nat.le_antisymm (hlongest.2 _ hp.1) (hp.2 _ hlongest.1)
    have hpq : p = q := hpmatch.eq_of_size hqmatch hsize
    have hentry : (p, h) = (q, g) := List.inj_on_of_nodup_map hm hpmem hqmem hpq
    exact ⟨(p, h), hentry ▸ he, rfl⟩

/-! ## Tables made by calls -/

theorem has_iff : m.has p = true ↔ p ∈ m.entries.map Prod.fst := by
  simp [has]

/-- A table that has gained entries, and still has at most one for each pattern. -/
structure Gains (m : PatternTable H) (es : List (String × H)) (m' : PatternTable H) : Prop where
  entries : m'.entries = m.entries ++ es
  nodup : (m.entries.map Prod.fst).Nodup → (m'.entries.map Prod.fst).Nodup

theorem gains_insert {h : H} (hok : m.insert p h = .ok m') : Gains m [(p, h)] m' := by
  unfold insert at hok
  split at hok
  · cases hok
  · next hnew =>
      cases hok
      rw [has_iff] at hnew
      refine ⟨rfl, fun hm => ?_⟩
      rw [List.map_append]
      exact (List.perm_append_singleton p _).nodup_iff.mpr (List.nodup_cons.mpr ⟨hnew, hm⟩)

theorem gains_addAll {es : List (String × H)} (hok : m.addAll es = (none, m')) : Gains m es m' := by
  induction es generalizing m with
  | nil =>
      cases hok
      exact ⟨(List.append_nil _).symm, id⟩
  | cons e es ih =>
      rw [addAll] at hok
      split at hok
      · cases hok
      · next n hn =>
          have hone := gains_insert hn
          have hrest := ih hok
          refine ⟨?_, fun hm => hrest.nodup (hone.nodup hm)⟩
          rw [hrest.entries, hone.entries, List.append_assoc, List.singleton_append]

/-- Tables that calls make of nothing, and what has been registered in them. None of the calls may
clash. -/
inductive Built : PatternTable H → List (String × H) → Prop where
  | empty : Built .empty []
  | handle {m m' : PatternTable H} {registered : List (String × H)} (hm : Built m registered)
      (pattern : String) (h : H) (hok : m.handle pattern h = .ok m') :
      Built m' (registered ++ [(rooted pattern, h)])
  | merge {m other m' : PatternTable H} {registered more : List (String × H)}
      (hm : Built m registered) (hother : Built other more) (hok : m.merge other = (none, m')) :
      Built m' (registered ++ more)

theorem Built.spec {registered : List (String × H)} (h : Built m registered) :
    m.entries = registered ∧ (m.entries.map Prod.fst).Nodup := by
  induction h with
  | empty => exact ⟨rfl, List.nodup_nil⟩
  | handle hm pattern h hok ih =>
      have hgains := gains_insert hok
      exact ⟨by rw [hgains.entries, ih.1], hgains.nodup ih.2⟩
  | merge hm hother hok ih ih' =>
      have hgains := gains_addAll hok
      exact ⟨by rw [hgains.entries, ih.1, ih'.1], hgains.nodup ih.2⟩

/-- A table gives the handler of the longest pattern that matches, and there is only one pattern of
that length. So it does not matter in which order the patterns were registered or merged. -/
theorem lookup_built {registered : List (String × H)} (h : Built m registered) :
    (∀ path handler, m.lookup path = some handler ↔
      ∃ p, (p, handler) ∈ registered ∧ Matches p path ∧
        ∀ q g, (q, g) ∈ registered → Matches q path → q.utf8ByteSize ≤ p.utf8ByteSize) ∧
    (∀ path, m.lookup path = none ↔ ∀ p handler, (p, handler) ∈ registered → ¬Matches p path) ∧
    (∀ path p q, Matches p path → Matches q path → p.utf8ByteSize = q.utf8ByteSize → p = q) ∧
    ∀ m' registered', Built m' registered' → (∀ e, e ∈ registered' ↔ e ∈ registered) →
      ∀ path, m'.lookup path = m.lookup path := by
  obtain ⟨rfl, hnodup⟩ := h.spec
  refine ⟨?_, ?_, fun _ _ _ hp hq => hp.eq_of_size hq, ?_⟩
  · intro path handler
    rw [lookup_eq_some_iff hnodup]
    refine exists_congr fun p => ?_
    simp only [IsLongest, mem_matching, Prod.forall, and_imp, and_assoc]
  · intro path
    rw [lookup_eq_none_iff, Prod.forall]
  · intro m' registered' h' hsame path
    obtain ⟨rfl, hnodup'⟩ := h'.spec
    refine Option.ext fun handler => ?_
    rw [lookup_eq_some_iff hnodup, lookup_eq_some_iff hnodup']
    refine exists_congr fun p => isLongest_congr (fun e => ?_) _
    rw [mem_matching, mem_matching, hsame]

/-! A table merged into another one. Two of its patterns match a path, and the longer one is longer
than the path. -/

def docsTable : PatternTable Nat := ⟨[("/docs/", 1)]⟩

def siteTable : PatternTable Nat := ⟨[("/", 0), ("/docs", 2), ("/docs/", 1)]⟩

theorem built_docsTable : Built docsTable [("/docs/", 1)] := Built.empty.handle "docs/" 1 rfl

theorem built_siteTable : Built siteTable [("/", 0), ("/docs", 2), ("/docs/", 1)] :=
  ((Built.empty.handle "/" 0 rfl).handle "docs" 2 rfl).merge built_docsTable rfl

theorem lookup_built_docs :
    Built siteTable [("/", 0), ("/docs", 2), ("/docs/", 1)] ∧ siteTable.lookup "/docs" = some 1 := by
  have hlongest : ∀ e ∈ siteTable.entries, e.1.utf8ByteSize ≤ "/docs/".utf8ByteSize := by decide
  refine ⟨built_siteTable, ((lookup_built built_siteTable).1 "/docs" 1).mpr ⟨"/docs/", ?_, ?_, ?_⟩⟩
  · decide
  · exact Or.inl ⟨"/docs", rfl, Or.inl rfl⟩
  · exact fun q g hmem _ => hlongest (q, g) hmem

end WebResource.PatternTable
