import Mathlib.Data.Bool.AllAny
import Mathlib.Data.List.Flatten
import WebResource.Negotiation
import WebResource.Proofs.Media
import WebResource.Proofs.Text.Blank
import WebResource.Proofs.Text.Utf8

namespace WebResource

/-!
# Lists of accepted media types

Media types are read between commas and blanks, in order and whatever their letters, up to the
parameters of one of them. What only blanks divide from parameters is not read; the next comma ends that.
-/

namespace Headers

/-- A text of visible characters, spaces and tabs is read as it is written. -/
theorem text?_encode {cs : List Char}
    (h : ∀ c ∈ cs, (0x20 ≤ c.toNat ∧ c.toNat ≤ 0x7E) ∨ c.toNat = 0x09) :
    text? (Utf8.encode (String.ofList cs)) = some (String.ofList cs) := by
  have hascii : ∀ c ∈ cs, c.toNat < 0x80 := fun c hc => by
    rcases h c hc with hc | hc <;> omega
  have hbyte : ∀ c ∈ cs, (UInt8.ofNat c.toNat).toNat = c.toNat := fun c hc =>
    Utf8.toNat_ofNat_of_lt (Nat.lt_trans (hascii c hc) (by decide))
  have htext : isText (cs.map fun c => UInt8.ofNat c.toNat) = true := by
    simp only [isText, List.all_map, List.all_eq_true, Function.comp_apply, Bool.or_eq_true,
      Bool.and_eq_true, decide_eq_true_eq, UInt8.le_iff_toNat_le, beq_iff_eq, ← UInt8.toNat_inj]
    intro c hc
    rw [hbyte c hc]
    exact h c hc
  have hback : ((cs.map fun c => UInt8.ofNat c.toNat).map fun b => Char.ofNat b.toNat) = cs := by
    rw [List.map_map]
    refine (List.map_congr_left fun c hc => ?_).trans (List.map_id cs)
    rw [Function.comp_apply, hbyte c hc, Char.ofNat_toNat, id]
  rw [Utf8.encode, String.toList_ofList, Utf8.encodeChars_ascii hascii, text?, if_pos htext, hback]

end Headers

namespace Media

open Text

variable {c : Char} {w cs : List Char}

/-! ## Words in front of parameters -/

/-- The words of a piece between commas, up to the first parameter. -/
def heads (piece : List Char) : List (List Char) := wordsChars (piece.takeWhile (· != ';'))

/-- The words of all pieces. -/
def shown (cs : List Char) : List (List Char) := (splitOn ',' cs).flatMap heads

/-- The words of all pieces but the first. -/
def beyond (cs : List Char) : List (List Char) := (splitOn ',' cs).tail.flatMap heads

theorem ne_of_isBlank {d : Char} (hc : isBlank c = true) (hd : isBlank d = false) : c ≠ d :=
  fun h => Bool.false_ne_true (hd.symm.trans (h ▸ hc))

/-- A blank is in front of every other character. -/
theorem takeWhile_cons_blank {d : Char} (hc : isBlank c = true) (hd : isBlank d = false)
    (cs : List Char) : (c :: cs).takeWhile (· != d) = c :: cs.takeWhile (· != d) :=
  List.takeWhile_cons_of_pos (bne_iff_ne.mpr (ne_of_isBlank hc hd))

theorem heads_cons_blank (h : isBlank c = true) (cs : List Char) : heads (c :: cs) = heads cs := by
  rw [heads, takeWhile_cons_blank h (by decide), wordsChars_cons_blank h, heads]

theorem heads_concat_blank (h : isBlank c = true) (cs : List Char) : heads (cs ++ [c]) = heads cs := by
  rw [heads, heads, List.takeWhile_append]
  split
  · next hall =>
      rw [takeWhile_cons_blank h (by decide), List.takeWhile_nil, wordsChars_concat_blank h,
        (List.takeWhile_prefix _).eq_of_length hall]
  · rfl

theorem heads_trimChars (cs : List Char) : heads (trimChars cs) = heads cs := by
  have hback (as : List Char) : heads (as.rdropWhile isBlank) = heads as := by
    induction as using List.reverseRecOn with
    | nil => rfl
    | append_singleton as a ih =>
        cases ha : isBlank a with
        | true => rw [List.rdropWhile_concat_pos _ _ _ ha, ih, heads_concat_blank ha]
        | false => rw [List.rdropWhile_concat_neg _ _ _ (by simp [ha])]
  have hfront : heads (dropBlanks cs) = heads cs := by
    induction cs with
    | nil => rfl
    | cons a as ih =>
        cases ha : isBlank a with
        | true => rw [dropBlanks, List.dropWhile_cons_of_pos ha, ← dropBlanks, ih, heads_cons_blank ha]
        | false => rw [dropBlanks, List.dropWhile_cons_of_neg (by simp [ha])]
  rw [trimChars_eq, hback, hfront]

/-- A word without a semicolon is a head, if a blank follows it or nothing does. -/
theorem heads_append (hne : w ≠ []) (hw : ∀ c ∈ w, isBlank c = false ∧ c ≠ ';')
    (hcs : ∀ c ∈ cs.head?, isBlank c = true) : heads (w ++ cs) = w :: heads cs := by
  have hink : wordsChars w = [w] := wordsChars_of_ink hne fun c hc => (hw c hc).1
  rw [heads, List.takeWhile_append_of_pos fun c hc => bne_iff_ne.mpr (hw c hc).2]
  cases cs with
  | nil => rw [List.takeWhile_nil, List.append_nil, hink]; rfl
  | cons b cs =>
      have hb := hcs b rfl
      rw [heads_cons_blank hb, takeWhile_cons_blank hb (by decide), wordsChars_append_blank hb, hink,
        heads]
      rfl

/-- Nothing is read behind a semicolon. -/
theorem heads_append_semicolon (hne : w ≠ []) (hw : ∀ c ∈ w, isBlank c = false ∧ c ≠ ';')
    (cs : List Char) : heads (w ++ ';' :: cs) = [w] := by
  rw [heads, List.takeWhile_append_of_pos fun c hc => bne_iff_ne.mpr (hw c hc).2,
    List.takeWhile_cons_of_neg (by decide), List.append_nil]
  exact wordsChars_of_ink hne fun c hc => (hw c hc).1

theorem acceptTypes_ofList (cs : List Char) :
    acceptTypes (String.ofList cs) = (shown cs).map fun w => canonical (String.ofList w) := by
  have hentry (piece : List Char) : entryTypes (String.ofList piece) =
      (heads piece).map fun w => canonical (String.ofList w) := by
    rw [entryTypes, words, toList_before, trim, String.toList_ofList, String.toList_ofList, ← heads,
      heads_trimChars, List.map_map]
    rfl
  rw [acceptTypes, pieces, String.toList_ofList, List.flatMap_map, shown, List.map_flatMap]
  exact List.flatMap_congr fun piece _ => hentry piece

/-! ## Pieces between commas -/

theorem shown_eq (cs : List Char) : shown cs = heads (cs.takeWhile (· != ',')) ++ beyond cs := by
  rw [shown, splitOn_eq_takeWhile, List.flatMap_cons, beyond]

theorem beyond_append (h : ',' ∉ w) (cs : List Char) : beyond (w ++ cs) = beyond cs := by
  rw [beyond, tail_splitOn_append h, beyond]

theorem beyond_cons_comma (cs : List Char) : beyond (',' :: cs) = shown cs := by
  rw [beyond, splitOn, if_pos rfl, List.tail_cons, shown]

theorem shown_cons_comma (cs : List Char) : shown (',' :: cs) = shown cs := by
  rw [shown_eq, beyond_cons_comma, List.takeWhile_cons_of_neg (by decide)]
  rfl

theorem shown_cons_blank (h : isBlank c = true) (cs : List Char) : shown (c :: cs) = shown cs := by
  have hcomma : ',' ∉ [c] := fun hmem =>
    ne_of_isBlank h (by decide) (List.mem_singleton.mp hmem).symm
  have hbeyond : beyond (c :: cs) = beyond cs := beyond_append hcomma cs
  rw [shown_eq, takeWhile_cons_blank h (by decide), heads_cons_blank h, hbeyond, ← shown_eq]

/-- Behind a word comes a separator or nothing. -/
def Apart (cs : List Char) : Prop := ∀ c ∈ cs.head?, isBlank c = true ∨ c = ','

theorem shown_append (hne : w ≠ []) (hw : ∀ c ∈ w, isBlank c = false ∧ c ≠ ';') (hcomma : ',' ∉ w)
    (hcs : Apart cs) : shown (w ++ cs) = w :: shown cs := by
  have hfront : ∀ c ∈ w, (c != ',') = true := fun c hc => bne_iff_ne.mpr fun h => hcomma (h ▸ hc)
  have hblank : ∀ c ∈ (cs.takeWhile (· != ',')).head?, isBlank c = true := by
    intro c hc
    rw [List.head?_takeWhile, Option.mem_filter_iff, bne_iff_ne] at hc
    exact (hcs c hc.1).resolve_right hc.2
  rw [shown_eq, List.takeWhile_append_of_pos hfront, heads_append hne hw hblank, beyond_append hcomma,
    shown_eq cs, List.cons_append]

theorem shown_append_semicolon (hne : w ≠ []) (hw : ∀ c ∈ w, isBlank c = false ∧ c ≠ ';')
    (hcomma : ',' ∉ w) (cs : List Char) : shown (w ++ ';' :: cs) = w :: beyond cs := by
  have hfront : ∀ c ∈ w, (c != ',') = true := fun c hc => bne_iff_ne.mpr fun h => hcomma (h ▸ hc)
  have hbeyond : beyond (';' :: cs) = beyond cs := beyond_append (w := [';']) (by decide) cs
  rw [shown_eq, List.takeWhile_append_of_pos hfront, List.takeWhile_cons_of_pos (by decide),
    heads_append_semicolon hne hw, beyond_append hcomma, hbeyond, List.singleton_append]

/-! ## Entries and what is between them -/

/-- A visible character other than a comma. -/
def IsPlain (c : Char) : Prop := 0x21 ≤ c.toNat ∧ c.toNat ≤ 0x7E ∧ c ≠ ','

instance (c : Char) : Decidable (IsPlain c) := inferInstanceAs (Decidable (_ ∧ _ ∧ _))

theorem IsPlain.isBlank_eq (h : IsPlain c) : isBlank c = false := by
  have hcodes : ∀ n ∈ blankCodes, n < 0x21 ∨ 0x7E < n := by decide
  by_contra hblank
  rw [Bool.not_eq_false, isBlank, List.contains_iff_mem] at hblank
  have hcode := hcodes c.toNat hblank
  have hlow := h.1
  have hhigh := h.2.1
  omega

/-- A media type and its parameters, as an `Accept` header lists it. -/
structure AcceptEntry where
  mediaType : String
  parameters : List (String × String)
  named : mediaType ≠ ""
  plainType : ∀ c ∈ mediaType.toList, IsPlain c ∧ c ≠ ';'
  plainParameters : ∀ p ∈ parameters, ∀ c ∈ p.1.toList ++ p.2.toList, IsPlain c

namespace AcceptEntry

def parameterText (p : String × String) : List Char := ';' :: p.1.toList ++ '=' :: p.2.toList

def text (e : AcceptEntry) : List Char :=
  e.mediaType.toList ++ e.parameters.flatMap parameterText

/-- Whether only a comma ends the entry. -/
def hides (e : AcceptEntry) : Bool := !e.parameters.isEmpty

variable (e : AcceptEntry)

theorem isPlain_of_mem_text (h : c ∈ e.text) : IsPlain c := by
  rcases List.mem_append.mp h with h | h
  · exact (e.plainType c h).1
  · obtain ⟨p, hp, h⟩ := List.mem_flatMap.mp h
    have hplain := e.plainParameters p hp
    simp only [parameterText, List.cons_append, List.mem_cons, List.mem_append] at h hplain
    rcases h with rfl | h | rfl | h
    · exact ⟨by decide, by decide, by decide⟩
    · exact hplain c (Or.inl h)
    · exact ⟨by decide, by decide, by decide⟩
    · exact hplain c (Or.inr h)

theorem comma_notMem_text : ',' ∉ e.text := fun h => (e.isPlain_of_mem_text h).2.2 rfl

theorem canonical_mediaType : canonical e.mediaType = lower e.mediaType := by
  have hblank : ∀ c ∈ e.mediaType.toList, isBlank c = false := fun c hc =>
    (e.plainType c hc).1.isBlank_eq
  have htrim : trimChars e.mediaType.toList = e.mediaType.toList := by
    refine Trimmed.trimChars_eq ⟨?_, ?_⟩
    · rw [dropBlanks, List.dropWhile_eq_self_iff]
      intro hpos
      simp [hblank _ (List.getElem_mem hpos)]
    · rw [List.rdropWhile_eq_self_iff]
      intro hne
      simp [hblank _ (List.getLast_mem hne)]
  rw [canonical, before_of_notMem fun h => (e.plainType _ h).2 rfl, trim, htrim, String.ofList_toList]

/-- What is read behind an entry depends on whether the entry has parameters. -/
theorem shown_text_append (hcs : Apart cs) : shown (e.text ++ cs) =
    e.mediaType.toList :: bif e.hides then beyond cs else shown cs := by
  have hne : e.mediaType.toList ≠ [] := fun h => e.named (String.toList_eq_nil_iff.mp h)
  have htype : ∀ c ∈ e.mediaType.toList, isBlank c = false ∧ c ≠ ';' := fun c hc =>
    ⟨(e.plainType c hc).1.isBlank_eq, (e.plainType c hc).2⟩
  have hcomma : ',' ∉ e.mediaType.toList := fun h => (e.plainType _ h).1.2.2 rfl
  cases hps : e.parameters with
  | nil =>
      rw [text, hides, hps, List.flatMap_nil, List.append_nil]
      exact shown_append hne htype hcomma hcs
  | cons p ps =>
      obtain ⟨rest, hrest⟩ : ∃ rest, e.text = e.mediaType.toList ++ ';' :: rest :=
        ⟨_, by rw [text, hps, List.flatMap_cons, parameterText, List.cons_append, List.cons_append]⟩
      have hnone : ',' ∉ rest := fun h => e.comma_notMem_text
        (hrest ▸ List.mem_append_right _ (List.mem_cons_of_mem _ h))
      rw [hrest, List.append_assoc, List.cons_append, shown_append_semicolon hne htype hcomma,
        beyond_append hnone, hides, hps]
      rfl

theorem beyond_text_append (cs : List Char) : beyond (e.text ++ cs) = beyond cs :=
  beyond_append e.comma_notMem_text cs

end AcceptEntry

def IsSeparator (c : Char) : Prop := c = ',' ∨ c = ' ' ∨ c = '\t'

theorem shown_append_of_separators (hw : ∀ c ∈ w, IsSeparator c) (cs : List Char) :
    shown (w ++ cs) = shown cs := by
  induction w with
  | nil => rfl
  | cons c w ih =>
      obtain ⟨hc, hrest⟩ := List.forall_mem_cons.mp hw
      rw [List.cons_append]
      rcases hc with rfl | rfl | rfl
      · rw [shown_cons_comma, ih hrest]
      · rw [shown_cons_blank (by decide), ih hrest]
      · rw [shown_cons_blank (by decide), ih hrest]

/-- What stands between two entries. -/
structure Gap where
  text : List Char
  some : text ≠ []
  separating : ∀ c ∈ text, IsSeparator c

namespace Gap

variable (gap : Gap)

theorem shown_text_append (cs : List Char) : shown (gap.text ++ cs) = shown cs :=
  shown_append_of_separators gap.separating cs

/-- A comma lets what follows be read, whatever is in front of it. -/
theorem beyond_text_append (cs : List Char) :
    beyond (gap.text ++ cs) = if ',' ∈ gap.text then shown cs else beyond cs := by
  split
  · next hcomma =>
      obtain ⟨as, bs, hsplit, hfirst⟩ := List.eq_append_cons_of_mem hcomma
      have hbs : ∀ c ∈ bs, IsSeparator c := fun c hc => gap.separating c
        (hsplit ▸ List.mem_append_right as (List.mem_cons_of_mem _ hc))
      rw [hsplit, List.append_assoc, beyond_append hfirst, List.cons_append, beyond_cons_comma,
        shown_append_of_separators hbs]
  · next hnone => exact beyond_append hnone cs

theorem apart (cs : List Char) : Apart (gap.text ++ cs) := by
  obtain ⟨c, w, hw⟩ := List.exists_cons_of_ne_nil gap.some
  intro d hd
  rw [hw, List.cons_append, List.head?_cons, Option.mem_some_iff] at hd
  rcases gap.separating c (hw ▸ List.mem_cons_self) with rfl | rfl | rfl
  · exact Or.inr hd.symm
  · exact Or.inl (hd ▸ by decide)
  · exact Or.inl (hd ▸ by decide)

end Gap

/-- The value of one `Accept` header. -/
structure AcceptValue where
  first : AcceptEntry
  others : List (Gap × AcceptEntry)

namespace AcceptValue

def othersText (others : List (Gap × AcceptEntry)) : List Char :=
  others.flatMap fun (gap, e) => gap.text ++ e.text

/-- The entries that are read behind another one, which may hide them up to the next comma. -/
def readOthers (hidden : Bool) : List (Gap × AcceptEntry) → List AcceptEntry
  | [] => []
  | (gap, e) :: others =>
    if hidden = true ∧ ',' ∉ gap.text then readOthers true others
    else e :: readOthers e.hides others

/-- A comma comes behind an entry with parameters, wherever another one follows. -/
def DividedBehind (e : AcceptEntry) : List (Gap × AcceptEntry) → Prop
  | [] => True
  | (gap, e') :: others => (e.parameters ≠ [] → ',' ∈ gap.text) ∧ DividedBehind e' others

variable (v : AcceptValue)

def text : List Char := v.first.text ++ othersText v.others

def bytes : Bytes := Utf8.encode (String.ofList v.text)

def entries : List AcceptEntry := v.first :: v.others.map (·.2)

def read : List AcceptEntry := v.first :: readOthers v.first.hides v.others

def Divided : Prop := DividedBehind v.first v.others

/-! ## What is read of a value -/

theorem apart_othersText (others : List (Gap × AcceptEntry)) : Apart (othersText others) := by
  cases others with
  | nil => nofun
  | cons other others =>
      rw [othersText, List.flatMap_cons, List.append_assoc]
      exact other.1.apart _

theorem read_othersText (hidden : Bool) (others : List (Gap × AcceptEntry)) :
    (bif hidden then beyond (othersText others) else shown (othersText others)) =
      (readOthers hidden others).map (·.mediaType.toList) := by
  induction others generalizing hidden with
  | nil => cases hidden <;> rfl
  | cons other others ih =>
      obtain ⟨gap, e⟩ := other
      have hentry : shown (e.text ++ othersText others) =
          (e :: readOthers e.hides others).map (·.mediaType.toList) := by
        rw [e.shown_text_append (apart_othersText others), ih, List.map_cons]
      have hskip : beyond (e.text ++ othersText others) =
          (readOthers true others).map (·.mediaType.toList) := by
        rw [e.beyond_text_append, ← ih true, cond_true]
      have htext : othersText ((gap, e) :: others) = gap.text ++ (e.text ++ othersText others) := by
        rw [othersText, List.flatMap_cons, List.append_assoc, ← othersText]
      rw [htext, gap.shown_text_append, gap.beyond_text_append, hentry, hskip, readOthers]
      cases hidden with
      | false => simp
      | true => by_cases hcomma : ',' ∈ gap.text <;> simp [hcomma]

theorem shown_text : shown v.text = v.read.map (·.mediaType.toList) := by
  rw [text, v.first.shown_text_append (apart_othersText v.others), read_othersText, read, List.map_cons]

theorem acceptTypes_text :
    acceptTypes (String.ofList v.text) = v.read.map fun e => lower e.mediaType := by
  rw [acceptTypes_ofList, shown_text, List.map_map]
  refine List.map_congr_left fun e _ => ?_
  rw [Function.comp_apply, String.ofList_toList, e.canonical_mediaType]

theorem text?_bytes : Headers.text? v.bytes = some (String.ofList v.text) := by
  refine Headers.text?_encode fun c hc => ?_
  have hplain (e : AcceptEntry) (h : c ∈ e.text) : 0x20 ≤ c.toNat ∧ c.toNat ≤ 0x7E := by
    obtain ⟨hlow, hhigh, -⟩ := e.isPlain_of_mem_text h
    exact ⟨Nat.le_of_succ_le hlow, hhigh⟩
  rcases List.mem_append.mp hc with hc | hc
  · exact Or.inl (hplain _ hc)
  · obtain ⟨⟨gap, e⟩, -, hc⟩ := List.mem_flatMap.mp hc
    rcases List.mem_append.mp hc with hc | hc
    · rcases gap.separating c hc with rfl | rfl | rfl <;> decide
    · exact Or.inl (hplain e hc)

theorem acceptCandidates_eq {hs : Headers} {values : List AcceptValue}
    (h : hs.all "accept" = values.map bytes) :
    acceptCandidates hs = (values.flatMap read).map fun e => lower e.mediaType := by
  have hcomp : Headers.text? ∘ bytes = some ∘ fun v : AcceptValue => String.ofList v.text := by
    funext v
    rw [Function.comp_apply, text?_bytes, Function.comp_apply]
  have htexts : (values.map bytes).filterMap Headers.text? =
      values.map fun v => String.ofList v.text := by
    rw [List.filterMap_map, hcomp, List.filterMap_eq_map]
  rw [acceptCandidates, h, htexts, List.flatMap_map, List.map_flatMap]
  exact List.flatMap_congr fun v _ => v.acceptTypes_text

/-! ## Entries that are not read -/

theorem readOthers_sublist (hidden : Bool) (others : List (Gap × AcceptEntry)) :
    List.Sublist (readOthers hidden others) (others.map (·.2)) := by
  induction others generalizing hidden with
  | nil => exact List.Sublist.slnil
  | cons other others ih =>
      obtain ⟨gap, e⟩ := other
      rw [readOthers, List.map_cons]
      split
      · exact (ih true).cons e
      · exact (ih e.hides).cons_cons e

theorem readOthers_eq_iff (e : AcceptEntry) (others : List (Gap × AcceptEntry)) :
    readOthers e.hides others = others.map (·.2) ↔ DividedBehind e others := by
  induction others generalizing e with
  | nil => exact iff_of_true rfl trivial
  | cons other others ih =>
      obtain ⟨gap, e'⟩ := other
      have hhides : e.hides = true ↔ e.parameters ≠ [] := by
        rw [AcceptEntry.hides, Bool.not_eq_true', List.isEmpty_eq_false_iff]
      rw [readOthers, List.map_cons, DividedBehind, ← ih e', ← hhides]
      split
      · next hlost =>
          have hlength := (readOthers_sublist true others).length_le
          refine iff_of_false (fun heq => ?_) fun hdivided => hlost.2 (hdivided.1 hlost.1)
          rw [heq, List.length_cons] at hlength
          exact absurd hlength (Nat.not_succ_le_self _)
      · next hkept =>
          have hcomma : e.hides = true → ',' ∈ gap.text := fun hhidden =>
            not_not.mp fun hnone => hkept ⟨hhidden, hnone⟩
          rw [List.cons_inj_right, and_iff_right hcomma]

theorem read_sublist : List.Sublist v.read v.entries :=
  (readOthers_sublist v.first.hides v.others).cons_cons v.first

theorem read_eq_iff : v.read = v.entries ↔ v.Divided := by
  rw [read, entries, List.cons_inj_right, readOthers_eq_iff, Divided]

/-- Of several values all entries are read only if this holds of each of them. -/
theorem length_read_eq_iff (values : List AcceptValue) :
    (values.flatMap read).length = (values.flatMap entries).length ↔ ∀ v ∈ values, v.Divided := by
  induction values with
  | nil => simp
  | cons v values ih =>
      have hhead := v.read_sublist.length_le
      have htail : (values.flatMap read).length ≤ (values.flatMap entries).length :=
        (List.Sublist.flatMap_right values fun w _ => w.read_sublist).length_le
      have hread : v.read.length = v.entries.length ↔ v.Divided :=
        ⟨fun h => v.read_eq_iff.mp (v.read_sublist.eq_of_length h),
          fun h => congrArg List.length (v.read_eq_iff.mpr h)⟩
      rw [List.flatMap_cons, List.flatMap_cons, List.length_append, List.length_append,
        List.forall_mem_cons, ← hread, ← ih]
      omega

end AcceptValue

/-- The media types that a request accepts are those of all listed entries, in lower case, exactly if
a comma comes behind every entry with parameters that another one follows in its header; what only
blanks divide from parameters is not read. The codec of the response is then that of the first listed
media type that has one, however the entries are written. -/
theorem acceptCandidates_eq_iff {hs : Headers} {values : List AcceptValue}
    (h : hs.all "accept" = values.map AcceptValue.bytes) :
    acceptCandidates hs = (values.flatMap AcceptValue.read).map (fun e => lower e.mediaType) ∧
      (acceptCandidates hs = (values.flatMap AcceptValue.entries).map (fun e => lower e.mediaType) ↔
        ∀ v ∈ values, v.Divided) ∧
      ((∀ v ∈ values, v.Divided) → ∀ (own : CodecTable) (request : MediaCodec),
        MediaCodec.forResponse hs own request =
          ((values.flatMap AcceptValue.entries).findSome? fun e =>
            MediaCodec.lookup e.mediaType own).getD request) := by
  have hread := AcceptValue.acceptCandidates_eq h
  have hall : acceptCandidates hs =
      (values.flatMap AcceptValue.entries).map (fun e => lower e.mediaType) ↔
        ∀ v ∈ values, v.Divided := by
    constructor
    · intro heq
      have hlength := congrArg List.length (hread.symm.trans heq)
      rw [List.length_map, List.length_map] at hlength
      exact (AcceptValue.length_read_eq_iff values).mp hlength
    · intro hdivided
      rw [hread, List.flatMap_congr fun v hv => v.read_eq_iff.mpr (hdivided v hv)]
  refine ⟨hread, hall, fun hdivided own request => ?_⟩
  have hlookup (e : AcceptEntry) : MediaCodec.lookup (lower e.mediaType) own =
      MediaCodec.lookup e.mediaType own := by
    rw [MediaCodec.lookup, MediaCodec.lookup, ← e.canonical_mediaType, canonical_canonical]
  rw [MediaCodec.forResponse, hall.mpr hdivided, List.findSome?_map]
  exact congrArg (Option.getD · request) (congrArg (List.findSome? · _) (funext hlookup))

/-- Two entries with only a blank between them, the first with a parameter. -/
def jsonBeforeXml : AcceptValue :=
  let json : AcceptEntry := ⟨"application/json", [("q", "0.9")], by decide,
    List.all_iff_forall_prop.mp (by decide +kernel),
    List.forall_mem_singleton.mpr (List.all_iff_forall_prop.mp (by decide +kernel))⟩
  let xml : AcceptEntry := ⟨"application/xml", [], by decide,
    List.all_iff_forall_prop.mp (by decide +kernel), nofun⟩
  ⟨json, [(⟨[' '], by decide, List.forall_mem_singleton.mpr (Or.inr (Or.inl rfl))⟩, xml)]⟩

theorem acceptCandidates_jsonBeforeXml :
    jsonBeforeXml.text = "application/json;q=0.9 application/xml".toList ∧
      Headers.all "accept" [("Accept", jsonBeforeXml.bytes)] =
        [jsonBeforeXml].map AcceptValue.bytes ∧
      ¬jsonBeforeXml.Divided ∧
      acceptCandidates [("Accept", jsonBeforeXml.bytes)] = ["application/json"] ∧
      acceptCandidates [("Accept", jsonBeforeXml.bytes)] ≠ ["application/json", "application/xml"] := by
  have hname : Headers.matchesName "accept" ("Accept", jsonBeforeXml.bytes) = true := by
    decide +kernel
  have hall : Headers.all "accept" [("Accept", jsonBeforeXml.bytes)] =
      [jsonBeforeXml].map AcceptValue.bytes := by
    rw [Headers.all, List.filter_cons_of_pos hname, List.filter_nil, List.map_singleton,
      List.map_singleton]
  have hnot : ¬jsonBeforeXml.Divided := fun h => absurd (h.1 (by decide)) (by decide)
  obtain ⟨hread, hiff, -⟩ := acceptCandidates_eq_iff hall
  refine ⟨by decide +kernel, hall, hnot, hread, fun hboth => ?_⟩
  exact hnot (hiff.mp hboth jsonBeforeXml List.mem_cons_self)

end Media

end WebResource
