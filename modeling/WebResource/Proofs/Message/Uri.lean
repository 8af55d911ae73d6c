import WebResource.Message.Uri
import WebResource.Proofs.Text.Percent

namespace WebResource.Uri

/-!
# Targets that go on behind a slash

A target whose text goes on with one more segment behind a slash differs from the target that ends
in the slash only in its path, which goes on with the same segment: the segment cannot reach the
authority before it, and has nothing in it that could start a query or a fragment.
-/

/-- Characters that do not end a path. -/
def IsPathPart (c : Char) : Prop := c ≠ '?' ∧ c ≠ '#'

instance : DecidablePred IsPathPart := fun c => inferInstanceAs (Decidable (c ≠ '?' ∧ c ≠ '#'))

theorem readTarget_of_isPathPart {cs : List Char} (h : ∀ c ∈ cs, IsPathPart c) :
    readTarget cs =
      if cs.all isPathChar then .ok (String.ofList cs, none) else .error .badChar := by
  have hplain : ∀ c ∈ cs, (c != '?' && c != '#') = true := fun c hc => by
    simp [(h c hc).1, (h c hc).2]
  have hall : (cs.takeWhile fun c => c != '?' && c != '#') = cs := by
    rw [← List.append_nil cs, List.takeWhile_append_of_pos hplain]
    rfl
  rw [readTarget, hall, List.drop_length]
  cases hp : cs.all isPathChar <;> simp

/-! ## The authority ends before the first slash -/

theorem finish_eq {s : AuthorityScan} {n m : Nat} (h : scanAuthority.finish s n = .ok m) : m = n := by
  unfold scanAuthority.finish at h
  repeat' split at h
  all_goals cases h
  rfl

/-- Characters that end an authority. -/
def IsMark (c : Char) : Prop := c = '/' ∨ c = '?' ∨ c = '#'

theorem scanAuthority_cons_mark {m : Char} (hm : IsMark m) (s : AuthorityScan) (n : Nat)
    (x : List Char) : scanAuthority s n (m :: x) = scanAuthority.finish s n := by
  rw [scanAuthority]
  exact if_pos hm

theorem scanAuthority_mark {m : Char} (hm : IsMark m) (s : AuthorityScan) (n : Nat)
    (as x : List Char) : scanAuthority s n (as ++ m :: x) = scanAuthority s n (as ++ [m]) := by
  induction as generalizing s n with
  | nil => exact (scanAuthority_cons_mark hm s n x).trans (scanAuthority_cons_mark hm s n []).symm
  | cons a as ih =>
      simp only [List.cons_append, scanAuthority, ih]

theorem le_of_scanAuthority {m : Char} (hm : IsMark m) {s : AuthorityScan} {n l : Nat}
    {as : List Char} (h : scanAuthority s n (as ++ [m]) = .ok l) : l ≤ n + as.length := by
  induction as generalizing s n with
  | nil =>
      rw [List.nil_append, scanAuthority_cons_mark hm] at h
      exact Nat.le_of_eq (finish_eq h)
  | cons a as ih =>
      rw [List.length_cons]
      simp only [List.cons_append, scanAuthority] at h
      repeat' split at h
      all_goals first
        | contradiction
        | have := ih h; omega
        | have := finish_eq h; omega

theorem authorityLength_mark {m : Char} (hm : IsMark m) (as x : List Char) :
    authorityLength (as ++ m :: x) = authorityLength (as ++ [m]) :=
  scanAuthority_mark hm _ 0 as x

theorem le_of_authorityLength {m : Char} (hm : IsMark m) {as x : List Char} {l : Nat}
    (h : authorityLength (as ++ m :: x) = .ok l) : l ≤ as.length := by
  rw [authorityLength_mark hm] at h
  have hle := le_of_scanAuthority hm h
  omega

/-! ## Schemes -/

theorem isSchemeChar_mark {m : Char} (hm : IsMark m) : isSchemeChar m = false := by
  rcases hm with rfl | rfl | rfl <;> decide

theorem takeWhile_isSchemeChar {m : Char} (hm : IsMark m) (b y : List Char) :
    (b ++ m :: y).takeWhile isSchemeChar = b.takeWhile isSchemeChar := by
  rw [List.takeWhile_append, List.takeWhile_cons_of_neg (by simp [isSchemeChar_mark hm])]
  split
  · next h =>
      rw [List.append_nil]
      exact ((List.takeWhile_prefix isSchemeChar).eq_of_length h).symm
  · rfl

/-- A text whose first characters are the mark of a scheme, whatever follows it. -/
def StartsWithMark (d : List Char) : Prop := ∃ e, d = ':' :: '/' :: '/' :: e

theorem take_slash_iff {d y : List Char} (hd : d.getLast? ≠ some '/') (hy : '/' ∉ y) :
    (d ++ '/' :: y).take 3 = [':', '/', '/'] ↔ StartsWithMark d := by
  constructor
  · intro h
    match d, hd, h with
    | [], _, h => simp at h
    | [a], _, h =>
        cases y with
        | nil => simp at h
        | cons c y =>
            simp only [List.cons_append, List.nil_append, List.take_succ_cons, List.take_zero,
              List.cons.injEq, and_true] at h
            exact absurd (h.2.2 ▸ List.mem_cons_self) hy
    | [a, b], hd, h =>
        simp only [List.cons_append, List.nil_append, List.take_succ_cons, List.take_zero,
          List.cons.injEq, and_true] at h
        exact absurd (by simp [h.2]) hd
    | a :: b :: c :: e, hd, h =>
        simp only [List.cons_append, List.take_succ_cons, List.take_zero, List.cons.injEq,
          and_true] at h
        obtain ⟨rfl, rfl, rfl⟩ := h
        exact ⟨e, rfl⟩
  · rintro ⟨e, rfl⟩
    rfl

theorem take_query_iff {d y : List Char} {m : Char} (hm : m = '?' ∨ m = '#') :
    (d ++ m :: y).take 3 = [':', '/', '/'] ↔ StartsWithMark d := by
  constructor
  · intro h
    match d, h with
    | [], h => rcases hm with rfl | rfl <;> simp at h
    | [a], h => rcases hm with rfl | rfl <;> simp at h
    | [a, b], h => rcases hm with rfl | rfl <;> simp at h
    | a :: b :: c :: e, h =>
        simp only [List.cons_append, List.take_succ_cons, List.take_zero, List.cons.injEq,
          and_true] at h
        obtain ⟨rfl, rfl, rfl⟩ := h
        exact ⟨e, rfl⟩
  · rintro ⟨e, rfl⟩
    rfl

/-- Whether there is a scheme, and which, does not depend on what follows the end of an authority, as
long as that cannot be part of the mark of a scheme. -/
theorem splitScheme_mark {b : List Char} {m : Char} (hm : IsMark m) (Rest : List Char → Prop)
    (htake : ∀ d y, d <:+ b → Rest y →
      ((d ++ m :: y).take 3 = [':', '/', '/'] ↔ StartsWithMark d)) :
    (∃ e, ∀ y, Rest y → splitScheme (b ++ m :: y) = .error e) ∨
      (∀ y, Rest y → splitScheme (b ++ m :: y) = .ok none) ∨
        ∃ scheme pre d, b = pre ++ d ∧
          ∀ y, Rest y → splitScheme (b ++ m :: y) = .ok (some (scheme, d ++ m :: y)) := by
  obtain ⟨name, d, hname, hd⟩ : ∃ name d, b.takeWhile isSchemeChar = name ∧ b = name ++ d :=
    ⟨_, _, rfl, List.takeWhile_append_dropWhile.symm⟩
  have hsuffix : d <:+ b := hd ▸ List.suffix_append name d
  have hdrop (y : List Char) : (b ++ m :: y).drop name.length = d ++ m :: y := by
    rw [hd, List.append_assoc, List.drop_left]
  by_cases hstart : StartsWithMark d
  · have hcond {y : List Char} (hy : Rest y) :
        (d ++ m :: y).take 3 = [':', '/', '/'] ∧ 3 < (b ++ m :: y).length := by
      refine ⟨(htake d y hsuffix hy).mpr hstart, ?_⟩
      obtain ⟨e, rfl⟩ := hstart
      rw [hd]
      simp only [List.length_append, List.length_cons]
      omega
    obtain ⟨e, rfl⟩ := hstart
    have hsplit : b = (name ++ [':', '/', '/']) ++ e := by simpa using hd
    by_cases hweb : name.map Char.toLower = "http".toList ∨ name.map Char.toLower = "https".toList
    · refine Or.inr (Or.inr ⟨String.ofList (name.map Char.toLower), _, e, hsplit, fun y hy => ?_⟩)
      simp only [splitScheme, takeWhile_isSchemeChar hm, hname, hdrop]
      rw [if_pos (hcond hy), if_pos hweb]
      rfl
    · by_cases hlong : 64 < name.length
      · refine Or.inl ⟨.schemeTooLong, fun y hy => ?_⟩
        simp only [splitScheme, takeWhile_isSchemeChar hm, hname, hdrop]
        rw [if_pos (hcond hy), if_neg hweb, if_pos hlong]
      · refine Or.inr (Or.inr ⟨String.ofList name, _, e, hsplit, fun y hy => ?_⟩)
        simp only [splitScheme, takeWhile_isSchemeChar hm, hname, hdrop]
        rw [if_pos (hcond hy), if_neg hweb, if_neg hlong]
        rfl
  · refine Or.inr (Or.inl fun y hy => ?_)
    simp only [splitScheme, takeWhile_isSchemeChar hm, hname, hdrop]
    exact if_neg fun h => hstart ((htake d y hsuffix hy).mp h.1)

theorem splitScheme_slash {b : List Char} (hb : b.getLast? ≠ some '/') :
    (∃ e, ∀ y, '/' ∉ y → splitScheme (b ++ '/' :: y) = .error e) ∨
      (∀ y, '/' ∉ y → splitScheme (b ++ '/' :: y) = .ok none) ∨
        ∃ scheme pre d, b = pre ++ d ∧
          ∀ y, '/' ∉ y → splitScheme (b ++ '/' :: y) = .ok (some (scheme, d ++ '/' :: y)) := by
  refine splitScheme_mark (Or.inl rfl) (fun y => '/' ∉ y) fun d y hd hy => take_slash_iff (fun hlast => hb ?_) hy
  obtain ⟨pre, rfl⟩ := hd
  rw [List.getLast?_append, hlast]
  rfl

theorem splitScheme_query {b : List Char} {m : Char} (hm : m = '?' ∨ m = '#') :
    (∃ e, ∀ y, splitScheme (b ++ m :: y) = .error e) ∨
      (∀ y, splitScheme (b ++ m :: y) = .ok none) ∨
        ∃ scheme pre d, b = pre ++ d ∧
          ∀ y, splitScheme (b ++ m :: y) = .ok (some (scheme, d ++ m :: y)) := by
  simpa using splitScheme_mark (b := b) (Or.inr hm) (fun _ => True)
    fun d y _ _ => take_query_iff hm

/-! ## The whole target -/

/-- What may follow the last slash of a path. -/
def IsSegmentPart (c : Char) : Prop := c ≠ '/' ∧ IsPathPart c

theorem notMem_of_isSegmentPart {y : List Char} (h : ∀ c ∈ y, IsSegmentPart c) : '/' ∉ y :=
  fun hy => (h '/' hy).1 rfl

/-- How a text ending in a slash is read, if anything behind the slash is still part of the path. -/
structure ReadsBelow (b : List Char) (scheme authority : Option String) (p : List Char) : Prop where
  parseChars_eq : ∀ y, (∀ c ∈ y, IsSegmentPart c) → parseChars (b ++ '/' :: y) =
    if (p ++ '/' :: y).all isPathChar then
      .ok ⟨scheme, authority, String.ofList (p ++ '/' :: y), none⟩
    else .error .badChar

theorem readTarget_slash {p y : List Char} (hp : ∀ c ∈ p, IsPathPart c)
    (hy : ∀ c ∈ y, IsSegmentPart c) :
    readTarget (p ++ '/' :: y) =
      if (p ++ '/' :: y).all isPathChar then .ok (String.ofList (p ++ '/' :: y), none)
      else .error .badChar := by
  refine readTarget_of_isPathPart fun c hc => ?_
  rcases List.mem_append.mp hc with hc | hc
  · exact hp c hc
  · rcases List.mem_cons.mp hc with rfl | hc
    · exact ⟨by decide, by decide⟩
    · exact (hy c hc).2

section Scheme

variable {a : Char} {cs rest : List Char} {scheme : String} (ha : a ≠ '/') (hcs : cs ≠ [])

include ha hcs

theorem parseChars_of_splitScheme_error {e : UriError} (h : splitScheme (a :: cs) = .error e) :
    parseChars (a :: cs) = .error e := by
  unfold parseChars
  split <;> simp_all

theorem parseChars_of_splitScheme_none (h : splitScheme (a :: cs) = .ok none)
    (hlen : ∀ n, authorityLength (a :: cs) = .ok n → n < (a :: cs).length) :
    ∃ e, parseChars (a :: cs) = .error e := by
  unfold parseChars
  split <;> try simp_all
  split
  · exact ⟨_, rfl⟩
  · next n hn =>
      have hlt := hlen n hn
      exact ⟨.badFormat, if_neg (by omega)⟩

theorem parseChars_of_authorityLength {n : Nat} (h : splitScheme (a :: cs) = .ok (some (scheme, rest)))
    (hrest : rest ≠ []) (hlen : authorityLength rest = .ok (n + 1)) :
    parseChars (a :: cs) = (readTarget (rest.drop (n + 1))).map fun (p, q) =>
      ⟨some scheme, some (String.ofList (rest.take (n + 1))), p, q⟩ := by
  unfold parseChars
  split <;> simp_all

theorem parseChars_of_authorityLength_ne (h : splitScheme (a :: cs) = .ok (some (scheme, rest)))
    (hrest : rest ≠ []) (hlen : ∀ n, authorityLength rest ≠ .ok (n + 1)) :
    ∃ e, parseChars (a :: cs) = .error e := by
  cases hr : authorityLength rest with
  | error e =>
      refine ⟨e, ?_⟩
      unfold parseChars
      split <;> simp_all
  | ok n =>
      cases n with
      | zero =>
          refine ⟨.badFormat, ?_⟩
          unfold parseChars
          split <;> simp_all
      | succ n => exact absurd hr (hlen n)

end Scheme

/-- A text that does not end in a slash and holds neither query nor fragment is the front of a target
with a path, or of none at all. -/
theorem parseChars_slash {b : List Char} (hb : b.getLast? ≠ some '/')
    (hpart : ∀ c ∈ b, IsPathPart c) :
    (∀ y, (∀ c ∈ y, IsSegmentPart c) → ∃ e, parseChars (b ++ '/' :: y) = .error e) ∨
      ∃ scheme authority p, ReadsBelow b scheme authority p := by
  cases b with
  | nil =>
      refine Or.inr ⟨none, none, [], ⟨fun y hy => ?_⟩⟩
      have hread := readTarget_slash (p := []) (fun c hc => absurd hc List.not_mem_nil) hy
      rw [List.nil_append] at hread ⊢
      simp only [parseChars, hread]
      split <;> rfl
  | cons a b =>
      by_cases ha : a = '/'
      · subst ha
        refine Or.inr ⟨none, none, '/' :: b, ⟨fun y hy => ?_⟩⟩
        rw [List.cons_append, parseChars, ← List.cons_append, readTarget_slash hpart hy]
        split <;> rfl
      have hne (y : List Char) : b ++ '/' :: y ≠ [] := by simp
      -- Nothing can be read of a bad scheme, nor of an authority alone with a path behind it; behind
      -- a scheme, the authority has to end within `d`.
      rcases splitScheme_slash hb with ⟨e, he⟩ | hnone | ⟨scheme, pre, d, hsplit, hscheme⟩
      · exact Or.inl fun y hy =>
          ⟨e, parseChars_of_splitScheme_error ha (hne y) (he y (notMem_of_isSegmentPart hy))⟩
      · refine Or.inl fun y hy => parseChars_of_splitScheme_none ha (hne y)
          (hnone y (notMem_of_isSegmentPart hy)) fun n hn => ?_
        have hle : n ≤ (a :: b).length := le_of_authorityLength (Or.inl rfl) hn
        have hlength : (a :: b ++ '/' :: y).length = (a :: b).length + (y.length + 1) :=
          List.length_append
        exact Nat.lt_of_le_of_lt hle (hlength ▸ by omega)
      · have hrest (y : List Char) : d ++ '/' :: y ≠ [] := by simp
        have hpd : ∀ c ∈ d, IsPathPart c := fun c hc =>
          hpart c (hsplit ▸ List.mem_append_right pre hc)
        by_cases hlen : ∃ n, authorityLength (d ++ ['/']) = .ok (n + 1)
        · obtain ⟨n, hn⟩ := hlen
          have hle := le_of_authorityLength (Or.inl rfl) hn
          refine Or.inr ⟨some scheme, some (String.ofList (d.take (n + 1))), d.drop (n + 1),
            ⟨fun y hy => ?_⟩⟩
          rw [List.cons_append, parseChars_of_authorityLength ha (hne y)
            (hscheme y (notMem_of_isSegmentPart hy)) (hrest y) (by rw [authorityLength_mark (Or.inl rfl), hn]),
            List.drop_append_of_le_length hle, List.take_append_of_le_length hle,
            readTarget_slash (fun c hc => hpd c (List.mem_of_mem_drop hc)) hy]
          split <;> rfl
        · exact Or.inl fun y hy => parseChars_of_authorityLength_ne ha (hne y)
            (hscheme y (notMem_of_isSegmentPart hy)) (hrest y)
            fun n hn => hlen ⟨n, (authorityLength_mark (Or.inl rfl) d y) ▸ hn⟩

theorem parseChars_of_parse {s : String} {u : Uri} (h : parse s = .ok u) :
    parseChars s.toList = .ok u := by
  unfold parse at h
  split at h
  · cases h
  · exact h

/-- What is read from a text with one more segment is what is read from it without, but for the
segment at the end of the path. -/
theorem parse_slash_segment {base segment : String} {u : Uri}
    (hb : base.toList.getLast? ≠ some '/') (hpart : ∀ c ∈ base.toList, IsPathPart c)
    (hseg : ∀ c ∈ segment.toList, IsSegmentPart c)
    (h : parse (base ++ "/" ++ segment) = .ok u) :
    ∃ v p, parse (base ++ "/") = .ok v ∧ v.path = String.ofList (p ++ ['/']) ∧
      u = { v with rawPath := String.ofList (p ++ '/' :: segment.toList) } := by
  have hslash : ("/" : String).toList = ['/'] := by decide
  have hsize : (base ++ "/").utf8ByteSize ≤ (base ++ "/" ++ segment).utf8ByteSize := by
    have hsum := String.utf8ByteSize_append (s := base ++ "/") (t := segment)
    omega
  unfold parse at h ⊢
  split at h
  · cases h
  rw [if_neg (by omega)]
  simp only [String.toList_append, hslash, List.append_assoc, List.cons_append,
    List.nil_append] at h ⊢
  rcases parseChars_slash hb hpart with herr | ⟨scheme, authority, p, hread⟩
  · obtain ⟨e, he⟩ := herr segment.toList hseg
    rw [he] at h
    cases h
  · rw [hread.parseChars_eq _ hseg] at h
    split at h
    · next hall =>
        cases h
        have hall' : (p ++ ['/']).all isPathChar = true := by
          simp only [List.all_append, List.all_cons, Bool.and_eq_true] at hall ⊢
          exact ⟨hall.1, hall.2.1, rfl⟩
        refine ⟨⟨scheme, authority, String.ofList (p ++ ['/']), none⟩, p, ?_, ?_, rfl⟩
        · rw [hread.parseChars_eq [] fun c hc => absurd hc List.not_mem_nil, if_pos hall']
        · rw [path, if_neg]
          intro hempty
          have := congrArg String.toList hempty
          simp at this
    · cases h

/-- A segment of characters of a path can be put behind a slash, if there is room for it. -/
theorem exists_parse_slash {base segment : String} {v : Uri}
    (hb : base.toList.getLast? ≠ some '/') (hpart : ∀ c ∈ base.toList, IsPathPart c)
    (hseg : ∀ c ∈ segment.toList, IsSegmentPart c) (hchars : segment.toList.all isPathChar = true)
    (hroom : (base ++ "/" ++ segment).utf8ByteSize ≤ maxLength) (h : parse (base ++ "/") = .ok v) :
    ∃ u, parse (base ++ "/" ++ segment) = .ok u := by
  have hslash : ("/" : String).toList = ['/'] := by decide
  have hread := parseChars_of_parse h
  unfold parse
  rw [if_neg (Nat.not_lt.mpr hroom)]
  simp only [String.toList_append, hslash, List.append_assoc, List.cons_append,
    List.nil_append] at hread ⊢
  rcases parseChars_slash hb hpart with herr | ⟨scheme, authority, p, hbelow⟩
  · obtain ⟨e, he⟩ := herr [] fun c hc => absurd hc List.not_mem_nil
    rw [he] at hread
    cases hread
  · rw [hbelow.parseChars_eq [] fun c hc => absurd hc List.not_mem_nil] at hread
    split at hread
    · next hall =>
        have hall' : (p ++ '/' :: segment.toList).all isPathChar = true := by
          simp only [List.all_append, List.all_cons, Bool.and_eq_true] at hall ⊢
          exact ⟨hall.1, hall.2.1, hchars⟩
        exact ⟨_, (hbelow.parseChars_eq _ hseg).trans (if_pos hall')⟩
    · cases hread

/-! ## Queries and fragments -/

theorem readTarget_mark {p : List Char} {m : Char} (hp : ∀ c ∈ p, IsPathPart c)
    (hm : m = '?' ∨ m = '#') {z : List Char} {path : String} {query : Option String}
    (h : readTarget (p ++ m :: z) = .ok (path, query)) : path = String.ofList p := by
  have htake : ((p ++ m :: z).takeWhile fun c => c != '?' && c != '#') = p := by
    rw [List.takeWhile_append_of_pos fun c hc => by simp [(hp c hc).1, (hp c hc).2],
      List.takeWhile_cons_of_neg, List.append_nil]
    rcases hm with rfl | rfl <;> simp
  rw [readTarget, htake] at h
  simp only at h
  split at h
  · cases h
  · split at h
    · split at h
      · injection h with h
        injection h with h
        exact h.symm
      · cases h
    · injection h with h
      injection h with h
      exact h.symm

theorem path_of_map_readTarget {p z : List Char} {m : Char} (hp : ∀ c ∈ p, IsPathPart c)
    (hm : m = '?' ∨ m = '#') {scheme authority : Option String} {u : Uri}
    (h : (readTarget (p ++ m :: z)).map (fun (path, query) => Uri.mk scheme authority path query) =
      .ok u) : u.scheme = scheme ∧ u.rawPath = String.ofList p := by
  cases hr : readTarget (p ++ m :: z) with
  | error e =>
      rw [hr] at h
      cases h
  | ok r =>
      rw [hr] at h
      obtain ⟨path, query⟩ := r
      cases h
      exact ⟨rfl, readTarget_mark hp hm hr⟩

/-- A query or a fragment hides what follows it from the path. -/
theorem parseChars_query {b : List Char} {m : Char} (hpart : ∀ c ∈ b, IsPathPart c)
    (hm : m = '?' ∨ m = '#') :
    ∃ scheme path, ∀ z u, parseChars (b ++ m :: z) = .ok u → u.scheme = scheme ∧ u.rawPath = path := by
  by_cases hslash : ∃ cs, b = '/' :: cs
  · obtain ⟨cs, rfl⟩ := hslash
    refine ⟨none, String.ofList ('/' :: cs), fun z u hu => ?_⟩
    rw [List.cons_append, parseChars, ← List.cons_append] at hu
    exact path_of_map_readTarget hpart hm hu
  -- A mark alone is no target; anything else is at least two characters that do not start a path.
  have hcons (z : List Char) : (∃ e, parseChars (b ++ m :: z) = .error e) ∨
      ∃ a cs, b ++ m :: z = a :: cs ∧ a ≠ '/' ∧ cs ≠ [] := by
    cases b with
    | nil =>
        cases z with
        | nil => exact Or.inl (by rcases hm with rfl | rfl <;> exact ⟨_, rfl⟩)
        | cons c z => exact Or.inr ⟨m, c :: z, rfl, by rcases hm with rfl | rfl <;> decide, by simp⟩
    | cons a cs => exact Or.inr ⟨a, cs ++ m :: z, rfl, fun ha => hslash ⟨cs, ha ▸ rfl⟩, by simp⟩
  have hfail (hall : ∀ z, ∃ e, parseChars (b ++ m :: z) = .error e) : ∃ scheme path, ∀ z u,
      parseChars (b ++ m :: z) = .ok u → u.scheme = scheme ∧ u.rawPath = path := by
    refine ⟨none, "", fun z u hu => ?_⟩
    obtain ⟨e, he⟩ := hall z
    rw [he] at hu
    cases hu
  rcases splitScheme_query (b := b) hm with ⟨e, he⟩ | hnone | ⟨scheme, pre, d, hsplit, hscheme⟩
  · refine hfail fun z => ?_
    rcases hcons z with herr | ⟨a, cs, hab, ha, hcs⟩
    · exact herr
    · exact ⟨e, hab ▸ parseChars_of_splitScheme_error ha hcs (hab ▸ he z)⟩
  · refine hfail fun z => ?_
    rcases hcons z with herr | ⟨a, cs, hab, ha, hcs⟩
    · exact herr
    · refine hab ▸ parseChars_of_splitScheme_none ha hcs (hab ▸ hnone z) fun n hn => ?_
      rw [← hab] at hn ⊢
      have hle := le_of_authorityLength (Or.inr hm) hn
      rw [List.length_append, List.length_cons]
      omega
  · have hpd : ∀ c ∈ d, IsPathPart c := fun c hc => hpart c (hsplit ▸ List.mem_append_right pre hc)
    have hrest (z : List Char) : d ++ m :: z ≠ [] := by simp
    by_cases hlen : ∃ n, authorityLength (d ++ [m]) = .ok (n + 1)
    · obtain ⟨n, hn⟩ := hlen
      have hle := le_of_authorityLength (Or.inr hm) hn
      refine ⟨some scheme, String.ofList (d.drop (n + 1)), fun z u hu => ?_⟩
      rcases hcons z with ⟨e, he⟩ | ⟨a, cs, hab, ha, hcs⟩
      · rw [he] at hu
        cases hu
      · rw [hab, parseChars_of_authorityLength ha hcs (hab ▸ hscheme z) (hrest z)
          (by rw [authorityLength_mark (Or.inr hm), hn]), List.drop_append_of_le_length hle] at hu
        exact path_of_map_readTarget (fun c hc => hpd c (List.mem_of_mem_drop hc)) hm hu
    · refine hfail fun z => ?_
      rcases hcons z with herr | ⟨a, cs, hab, ha, hcs⟩
      · exact herr
      · exact hab ▸ parseChars_of_authorityLength_ne ha hcs (hab ▸ hscheme z) (hrest z)
          fun n hn => hlen ⟨n, (authorityLength_mark (Or.inr hm) d z) ▸ hn⟩

theorem exists_query {cs : List Char} (h : ¬∀ c ∈ cs, IsPathPart c) :
    ∃ b m z, cs = b ++ m :: z ∧ (∀ c ∈ b, IsPathPart c) ∧ (m = '?' ∨ m = '#') := by
  induction cs with
  | nil => exact absurd (fun c hc => absurd hc List.not_mem_nil) h
  | cons a cs ih =>
      by_cases ha : a = '?' ∨ a = '#'
      · exact ⟨[], a, cs, rfl, fun c hc => absurd hc List.not_mem_nil, ha⟩
      · have hpart : IsPathPart a := not_or.mp ha
        obtain ⟨b, m, z, rfl, hb, hm⟩ := ih fun hcs => h (List.forall_mem_cons.mpr ⟨hpart, hcs⟩)
        exact ⟨a :: b, m, z, rfl, List.forall_mem_cons.mpr ⟨hpart, hb⟩, hm⟩

theorem path_eq_of_parse {base s t : String} {u v : Uri}
    (hbase : ¬∀ c ∈ base.toList, IsPathPart c) (hu : parse (base ++ s) = .ok u)
    (hv : parse (base ++ t) = .ok v) : u.path = v.path := by
  obtain ⟨b, m, z, hsplit, hpart, hm⟩ := exists_query hbase
  obtain ⟨scheme, path, hread⟩ := parseChars_query hpart hm
  have hsame {r : String} {w : Uri} (hw : parse (base ++ r) = .ok w) :
      w.scheme = scheme ∧ w.rawPath = path := by
    refine hread (z ++ r.toList) w ?_
    have hchars := parseChars_of_parse hw
    rwa [String.toList_append, hsplit, List.append_assoc, List.cons_append] at hchars
  obtain ⟨hus, hup⟩ := hsame hu
  obtain ⟨hvs, hvp⟩ := hsame hv
  rw [Uri.path, Uri.path, hus, hup, hvs, hvp]

end WebResource.Uri
