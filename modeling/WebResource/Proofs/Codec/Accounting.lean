import Mathlib.Data.List.DropRight
import Mathlib.Data.List.TakeWhile
import WebResource.Proofs.Codec.Draining

namespace WebResource

/-!
# Where the bytes of a list go

A decoder only ever takes bytes off the front of its buffer, and each byte that it takes is blank,
punctuation of the array, or part of the text of a document that it gives. This is proved of one look at
the buffer, then of one call, and from there of a drain and of any calls one after the other.
-/

namespace Json

variable {s : State} {stack : List Frame} {n : Nat} {b : UInt8} {bs rest : Bytes} {v : Json}

/-! ## The text of a document -/

theorem eq_takeWhile_append_skipBlanks (bs : Bytes) : bs.takeWhile isBlankByte ++ skipBlanks bs = bs :=
  List.takeWhile_append_dropWhile

/-- A number by itself is done where the byte behind it shows its end, and is complete there. -/
theorem atEnd_of_endsBefore (hstep : step s stack b = .done v) (hends : endsBefore s stack = true) :
    atEnd s stack = .ok v := by
  cases s with
  | number negative n =>
      cases stack with
      | cons f stack => cases hends
      | nil =>
          simp only [step] at hstep
          cases hn : n.step b with
          | more m => simp [hn] at hstep
          | fault f => simp [hn] at hstep
          | «over» =>
              cases hvalue : n.value negative with
              | error f => simp [hn, hvalue] at hstep
              | ok w =>
                  simp only [hn, hvalue, deliver, Step.done.injEq] at hstep
                  simp only [atEnd, hvalue, List.isEmpty_nil, if_true, hstep]
  | _ => cases hends

/-- What is read up to the end of a document is enough to read the document. -/
theorem exists_text_of_run (h : run s stack n bs = .value v rest) :
    ∃ text, bs = text ++ rest ∧ (run s stack n text = .value v [] ∨
      ∃ s' stack', run s stack n text = .ended s' stack' ∧ atEnd s' stack' = .ok v) := by
  induction bs generalizing s stack n with
  | nil => cases h
  | cons b bs ih =>
      rw [run] at h
      cases hstep : step s stack b with
      | fault f back =>
          rw [hstep] at h
          cases h
      | more s' stack' =>
          rw [hstep] at h
          obtain ⟨text, rfl, htext⟩ := ih h
          refine ⟨b :: text, rfl, ?_⟩
          simp only [run, hstep]
          exact htext
      | done w =>
          rw [hstep] at h
          cases hends : endsBefore s stack with
          | false =>
              simp only [hends, Bool.false_eq_true, if_false] at h
              cases h
              refine ⟨[b], rfl, Or.inl ?_⟩
              simp only [run, hstep, hends, Bool.false_eq_true, if_false]
          | true =>
              simp only [hends, if_true] at h
              cases h
              exact ⟨[], rfl, Or.inr ⟨s, stack, rfl, atEnd_of_endsBefore hstep hends⟩⟩

theorem read_of_run (h : run .value [] 0 bs = .value v rest) :
    ∃ text, bs = text ++ rest ∧ read text = .ok v := by
  obtain ⟨text, rfl, htext⟩ := exists_text_of_run h
  refine ⟨text, rfl, ?_⟩
  rw [read]
  rcases htext with htext | ⟨s, stack, htext, hend⟩
  · rw [htext]
    rfl
  · rw [htext]
    simp only [hend]

theorem skipBlanks_eq_nil_of_readFirst (h : readFirst bs = .ok none) : skipBlanks bs = [] := by
  rw [readFirst] at h
  split at h
  · next hblank => exact hblank
  · (repeat' split at h) <;> cases h

/-- The first document of a text is in front of the rest, and is read by itself as it is there. -/
theorem exists_text_of_readFirst (h : readFirst bs = .ok (some (v, rest))) :
    ∃ text, bs = text ++ rest ∧ read text = .ok v := by
  rw [readFirst] at h
  split at h
  · cases h
  · split at h
    · next hrun =>
        cases h
        exact read_of_run hrun
    · next hrun =>
        split at h <;> cases h
        exact read_of_run hrun
    · next s stack hrun =>
        split at h <;> cases h
        next hend => exact ⟨bs, (List.append_nil bs).symm, by rw [read, hrun]; simp only [hend]⟩
    · cases h

end Json

namespace Pull

/-- The document that a call gives, if it gives one. -/
def values (p : Pull) : List Json :=
  match p.result with
  | .ok (some v) => [v]
  | _ => []

/-- The bytes that a call has taken off its buffer. -/
def taken (p : Pull) (src : Bytes) : Bytes := src.take (src.length - p.rest.length)

variable {p : Pull} {v : Json}

theorem values_of_some (h : p.result = .ok (some v)) : p.values = [v] := by
  rw [values, h]

theorem values_eq_nil (h : ∀ v, p.result ≠ .ok (some v)) : p.values = [] := by
  rw [values]
  split
  · next v hv => exact absurd hv (h v)
  · rfl

end Pull

namespace ListDecoder

open Json (isBlankByte skipBlanks)

/-! ## Bytes between documents -/

/-- A byte that may stand between two documents of a list. -/
def Between (format : ListFormat) (b : UInt8) : Prop :=
  isBlankByte b = true ∨ format = .array ∧ (b = 0x5B ∨ b = 0x5D ∨ b = 0x2C)

/-- Bytes that lead a decoder from one phase to another, and the documents whose texts are among
them. Only blanks and, in an array, its brackets and commas belong to no document. -/
inductive Consumes : ListFormat → ArrayPhase → Bytes → List Json → ArrayPhase → Prop where
  | nil (format : ListFormat) (phase : ArrayPhase) : Consumes format phase [] [] phase
  | blank {format : ListFormat} {phase phase' : ArrayPhase} {b : UInt8} {bs : Bytes} {vs : List Json}
      (hb : isBlankByte b = true) (h : Consumes format phase bs vs phase') :
      Consumes format phase (b :: bs) vs phase'
  | opening {phase : ArrayPhase} {bs : Bytes} {vs : List Json}
      (h : Consumes .array .first bs vs phase) : Consumes .array .start (0x5B :: bs) vs phase
  | comma {phase : ArrayPhase} {bs : Bytes} {vs : List Json}
      (h : Consumes .array .beforeValue bs vs phase) : Consumes .array .afterValue (0x2C :: bs) vs phase
  | closing {phase phase' : ArrayPhase} {bs : Bytes} {vs : List Json}
      (hphase : phase = .first ∨ phase = .afterValue) (h : Consumes .array .done bs vs phase') :
      Consumes .array phase (0x5D :: bs) vs phase'
  | item {phase phase' : ArrayPhase} {text bs : Bytes} {v : Json} {vs : List Json}
      (hphase : phase = .first ∨ phase = .beforeValue) (hread : Json.read text = .ok v)
      (h : Consumes .array .afterValue bs vs phase') : Consumes .array phase (text ++ bs) (v :: vs) phase'
  | line {phase phase' : ArrayPhase} {text bs : Bytes} {v : Json} {vs : List Json}
      (hread : Json.read text = .ok v) (h : Consumes .lines phase bs vs phase') :
      Consumes .lines phase (text ++ bs) (v :: vs) phase'

variable {format : ListFormat} {d : ListDecoder} {eof : Bool} {phase phase' phase'' : ArrayPhase}
  {b : UInt8} {bs cs src rest : Bytes} {v : Json} {vs ws : List Json} {p : Pull}

theorem Consumes.append (h : Consumes format phase bs vs phase')
    (h' : Consumes format phase' cs ws phase'') : Consumes format phase (bs ++ cs) (vs ++ ws) phase'' := by
  induction h with
  | nil format phase => exact h'
  | blank hb h ih => exact .blank hb (ih h')
  | opening h ih => exact .opening (ih h')
  | comma h ih => exact .comma (ih h')
  | closing hphase h ih => exact .closing hphase (ih h')
  | item hphase hread h ih =>
      rw [List.append_assoc]
      exact .item hphase hread (ih h')
  | line hread h ih =>
      rw [List.append_assoc]
      exact .line hread (ih h')

theorem Consumes.blanks (hbs : ∀ b ∈ bs, isBlankByte b = true) (h : Consumes format phase cs vs phase') :
    Consumes format phase (bs ++ cs) vs phase' := by
  induction bs with
  | nil => exact h
  | cons b bs ih =>
      obtain ⟨hb, hbs⟩ := List.forall_mem_cons.mp hbs
      exact .blank hb (ih hbs)

theorem length_pos_of_read (h : Json.read bs = .ok v) : 0 < bs.length := by
  cases bs with
  | nil => cases h
  | cons b bs => exact Nat.succ_pos bs.length

/-- Each document has a byte of its own. -/
theorem Consumes.length_le (h : Consumes format phase bs vs phase') : vs.length ≤ bs.length := by
  induction h with
  | nil format phase => exact Nat.le_refl _
  | item hphase hread h ih =>
      have hpos := length_pos_of_read hread
      rw [List.length_cons, List.length_append]
      omega
  | line hread h ih =>
      have hpos := length_pos_of_read hread
      rw [List.length_cons, List.length_append]
      omega
  | _ => exact Nat.le_succ_of_le ‹_›

theorem Consumes.between (h : Consumes format phase bs vs phase') (hvs : vs = []) :
    ∀ b ∈ bs, Between format b := by
  induction h with
  | nil format phase => exact nofun
  | blank hb h ih => exact List.forall_mem_cons.mpr ⟨Or.inl hb, ih hvs⟩
  | opening h ih => exact List.forall_mem_cons.mpr ⟨Or.inr ⟨rfl, Or.inl rfl⟩, ih hvs⟩
  | comma h ih => exact List.forall_mem_cons.mpr ⟨Or.inr ⟨rfl, Or.inr (Or.inr rfl)⟩, ih hvs⟩
  | closing hphase h ih => exact List.forall_mem_cons.mpr ⟨Or.inr ⟨rfl, Or.inr (Or.inl rfl)⟩, ih hvs⟩
  | item hphase hread h ih => cases hvs
  | line hread h ih => cases hvs

/-- Behind the bracket that closes an array there are only blanks. -/
theorem Consumes.blank_of_done (h : Consumes format phase bs vs phase') (hformat : format = .array)
    (hphase : phase = .done) : vs = [] ∧ ∀ b ∈ bs, isBlankByte b = true := by
  induction h with
  | nil format phase => exact ⟨rfl, nofun⟩
  | blank hb h ih =>
      obtain ⟨hvs, hbs⟩ := ih hformat hphase
      exact ⟨hvs, List.forall_mem_cons.mpr ⟨hb, hbs⟩⟩
  | opening h ih => cases hphase
  | comma h ih => cases hphase
  | closing hopen h ih => rcases hopen with rfl | rfl <;> cases hphase
  | item hopen hread h ih => rcases hopen with rfl | rfl <;> cases hphase
  | line hread h ih => cases hformat

/-- A decoder is at the end of an array only behind the bracket that closes it. -/
theorem Consumes.exists_closing (h : Consumes format phase bs vs phase') (hphase : phase ≠ .done)
    (hdone : phase' = .done) :
    ∃ front back last, bs = front ++ 0x5D :: back ∧ (last = .first ∨ last = .afterValue) ∧
      Consumes format phase front vs last ∧ ∀ b ∈ back, isBlankByte b = true := by
  induction h with
  | nil format phase => exact absurd hdone hphase
  | blank hb h ih =>
      obtain ⟨front, back, last, rfl, hlast, hfront, hback⟩ := ih hphase hdone
      exact ⟨_ :: front, back, last, rfl, hlast, .blank hb hfront, hback⟩
  | opening h ih =>
      obtain ⟨front, back, last, rfl, hlast, hfront, hback⟩ := ih nofun hdone
      exact ⟨_ :: front, back, last, rfl, hlast, .opening hfront, hback⟩
  | comma h ih =>
      obtain ⟨front, back, last, rfl, hlast, hfront, hback⟩ := ih nofun hdone
      exact ⟨_ :: front, back, last, rfl, hlast, .comma hfront, hback⟩
  | closing hopen h ih =>
      obtain ⟨rfl, hback⟩ := h.blank_of_done rfl rfl
      exact ⟨[], _, _, rfl, hopen, .nil _ _, hback⟩
  | item hopen hread h ih =>
      obtain ⟨front, back, last, rfl, hlast, hfront, hback⟩ := ih nofun hdone
      exact ⟨_ ++ front, back, last, (List.append_assoc _ _ _).symm, hlast, .item hopen hread hfront, hback⟩
  | line hread h ih =>
      obtain ⟨front, back, last, rfl, hlast, hfront, hback⟩ := ih hphase hdone
      exact ⟨_ ++ front, back, last, (List.append_assoc _ _ _).symm, hlast, .line hread hfront, hback⟩

/-- A call that takes what it takes off the front of its buffer. -/
def Consumed (format : ListFormat) (phase : ArrayPhase) (src : Bytes) (p : Pull) : Prop :=
  ∃ front, src = front ++ p.rest ∧ Consumes format phase front p.values p.phase

theorem Consumed.taken_eq (h : src = bs ++ p.rest) : p.taken src = bs := by
  subst h
  rw [Pull.taken, List.length_append, Nat.add_sub_cancel_right, List.take_left]

/-- Bytes in front of what a call takes off. -/
theorem Consumed.behind (h : Consumed format phase' rest p) (hbs : Consumes format phase bs [] phase') :
    Consumed format phase (bs ++ rest) p := by
  obtain ⟨front, rfl, hfront⟩ := h
  exact ⟨bs ++ front, (List.append_assoc _ _ _).symm, hbs.append hfront⟩

theorem consumes_skipBlanks (format : ListFormat) (phase : ArrayPhase) (src : Bytes) :
    ∃ front, src = front ++ skipBlanks src ∧ Consumes format phase front [] phase := by
  refine ⟨src.takeWhile isBlankByte, (Json.eq_takeWhile_append_skipBlanks src).symm, ?_⟩
  have hblanks : ∀ b ∈ src.takeWhile isBlankByte, isBlankByte b = true := fun b hb =>
    List.mem_takeWhile_imp hb
  have hfront := (Consumes.nil format phase).blanks hblanks
  rwa [List.append_nil] at hfront

theorem Consumed.of_skipBlanks (h : Consumed format phase (skipBlanks src) p) :
    Consumed format phase src p := by
  obtain ⟨front, hsrc, hfront⟩ := consumes_skipBlanks format phase src
  rw [hsrc]
  exact h.behind hfront

/-! ## One document -/

theorem exists_text_of_nextValue (h : nextValue eof src = (.ok (some v), rest)) :
    ∃ text, skipBlanks src = text ++ rest ∧ Json.read text = .ok v := by
  rw [nextValue] at h
  cases hread : Json.readFirst (skipBlanks src) with
  | error e =>
      simp only [hread] at h
      split at h <;> cases h
  | ok found =>
      cases found with
      | none =>
          simp only [hread] at h
          cases h
      | some q =>
          simp only [hread] at h
          split at h <;> cases h
          exact Json.exists_text_of_readFirst hread

/-- A reading that gives no document leaves all but blanks where it is. -/
theorem rest_of_nextValue (h : ∀ v, (nextValue eof src).1 ≠ .ok (some v)) :
    (nextValue eof src).2 = skipBlanks src := by
  rw [nextValue] at h ⊢
  cases hread : Json.readFirst (skipBlanks src) with
  | error e =>
      simp only
      split <;> rfl
  | ok found =>
      cases found with
      | none => rfl
      | some q =>
          simp only [hread] at h ⊢
          by_cases hmore : (q.2.isEmpty && !eof && q.1.isNumber) = true
          · rw [if_pos hmore]
          · rw [if_neg hmore] at h
            exact absurd rfl (h q.1)

/-- At the end of the text, only blanks give no document. -/
theorem skipBlanks_eq_nil_of_nextValue (h : (nextValue true src).1 = .ok none) : skipBlanks src = [] := by
  rw [nextValue] at h
  cases hread : Json.readFirst (skipBlanks src) with
  | error e =>
      simp only [hread, Bool.not_true, Bool.and_false, Bool.false_eq_true, if_false] at h
      cases h
  | ok found =>
      cases found with
      | none =>
          have hnone := Json.skipBlanks_eq_nil_of_readFirst hread
          rwa [skipBlanks, skipBlanks, List.dropWhile_idempotent] at hnone
      | some q =>
          simp only [hread, Bool.not_true, Bool.and_false, Bool.false_and, Bool.false_eq_true, if_false] at h
          cases h

theorem consumed_line (eof : Bool) (phase : ArrayPhase) (src : Bytes) :
    Consumed .lines phase src ⟨(nextValue eof src).1, phase, (nextValue eof src).2⟩ := by
  apply Consumed.of_skipBlanks
  by_cases hfound : ∃ v, (nextValue eof src).1 = .ok (some v)
  · obtain ⟨v, hv⟩ := hfound
    obtain ⟨text, htext, hread⟩ := exists_text_of_nextValue (Prod.ext hv rfl)
    have hline := Consumes.line hread (.nil .lines phase)
    rw [List.append_nil] at hline
    refine ⟨text, htext, ?_⟩
    rw [Pull.values_of_some hv]
    exact hline
  · have hnone := not_exists.mp hfound
    refine ⟨[], (rest_of_nextValue hnone).symm, ?_⟩
    rw [Pull.values_eq_nil hnone]
    exact .nil .lines phase

theorem consumed_pullValue (eof : Bool) (hphase : phase = .first ∨ phase = .beforeValue) (src : Bytes) :
    Consumed .array phase src (pullValue eof phase src) := by
  apply Consumed.of_skipBlanks
  rw [pullValue]
  cases hnext : nextValue eof src with
  | mk result rest =>
      have hrest (h : ∀ v, result ≠ .ok (some v)) : skipBlanks src = [] ++ rest := by
        have hvalues (v : Json) : (nextValue eof src).1 ≠ .ok (some v) := by
          rw [hnext]
          exact h v
        have hrest := rest_of_nextValue hvalues
        rw [hnext] at hrest
        exact hrest.symm
      cases result with
      | error f => exact ⟨[], hrest (by simp), .nil .array phase⟩
      | ok found =>
          cases found with
          | none =>
              refine ⟨[], hrest (by simp), ?_⟩
              cases eof <;> exact .nil .array phase
          | some v =>
              obtain ⟨text, htext, hread⟩ := exists_text_of_nextValue hnext
              have hitem := Consumes.item hphase hread (.nil .array .afterValue)
              rw [List.append_nil] at hitem
              exact ⟨text, htext, hitem⟩

/-! ## The loop of an array -/

/-- What the byte in front of a buffer leads to: an answer, or the byte is punctuation that is taken off
before the decoder looks again. -/
inductive Look where
  | answer (p : Pull)
  | again (phase : ArrayPhase) (rest : Bytes)

/-- One look at a buffer, blanks aside. -/
def look (eof : Bool) (phase : ArrayPhase) (src : Bytes) : Look :=
  match skipBlanks src with
  | [] => .answer (if phase = .done then ⟨.ok none, .done, []⟩ else starved eof phase)
  | b :: rest =>
    match phase with
    | .start =>
      if b = 0x5B then .again .first rest else .answer ⟨.error (.notArray b), .start, b :: rest⟩
    | .first => if b = 0x5D then .again .done rest else .answer (pullValue eof .first (b :: rest))
    | .afterValue =>
      if b = 0x5D then .again .done rest
      else if b = 0x2C then .again .beforeValue rest
      else .answer ⟨.error (.notSeparator b), .afterValue, b :: rest⟩
    | .beforeValue => .answer (pullValue eof .beforeValue (b :: rest))
    | .done => .answer ⟨.error (.afterArray b), .done, b :: rest⟩

/-- Looks until there is an answer, at most `n` times. -/
def looks (eof : Bool) : (n : Nat) → ArrayPhase → Bytes → Option Pull
  | 0, _, _ => none
  | n + 1, phase, src =>
    match look eof phase src with
    | .answer p => some p
    | .again phase rest => looks eof n phase rest

theorem looks_done (eof : Bool) (n : Nat) (src : Bytes) :
    looks eof (n + 1) .done src = some (pullDone src) := by
  rw [looks, look, pullDone]
  cases skipBlanks src <;> rfl

theorem looks_beforeValue (eof : Bool) (n : Nat) (src : Bytes) :
    looks eof (n + 1) .beforeValue src = some (pullBeforeValue eof src) := by
  rw [looks, look, pullBeforeValue]
  cases skipBlanks src <;> rfl

theorem looks_first (eof : Bool) (n : Nat) (src : Bytes) :
    looks eof (n + 2) .first src = some (pullFirst eof src) := by
  rw [looks, look, pullFirst]
  cases skipBlanks src with
  | nil => rfl
  | cons b rest =>
      by_cases hb : b = 0x5D
      · simp only [if_pos hb, looks_done]
      · simp only [if_neg hb]

theorem looks_afterValue (eof : Bool) (n : Nat) (src : Bytes) :
    looks eof (n + 2) .afterValue src = some (pullAfterValue eof src) := by
  rw [looks, look, pullAfterValue]
  cases skipBlanks src with
  | nil => rfl
  | cons b rest =>
      by_cases hb : b = 0x5D
      · simp only [if_pos hb, looks_done]
      · by_cases hcomma : b = 0x2C
        · simp only [if_neg hb, if_pos hcomma, looks_beforeValue]
        · simp only [if_neg hb, if_neg hcomma]

theorem looks_start (eof : Bool) (n : Nat) (src : Bytes) :
    looks eof (n + 3) .start src = some (pullStart eof src) := by
  rw [looks, look, pullStart]
  cases skipBlanks src with
  | nil => rfl
  | cons b rest =>
      by_cases hb : b = 0x5B
      · simp only [if_pos hb, looks_first]
      · simp only [if_neg hb]

/-- A call of an array decoder has its answer after three looks at the most. -/
theorem looks_eq (eof : Bool) (phase : ArrayPhase) (src : Bytes) :
    looks eof 3 phase src = some (pullArray eof phase src) := by
  cases phase with
  | start => exact looks_start eof 0 src
  | first => exact looks_first eof 1 src
  | afterValue => exact looks_afterValue eof 1 src
  | beforeValue => exact looks_beforeValue eof 2 src
  | done => exact looks_done eof 2 src

/-- Where a look leaves the bytes of the buffer. -/
def Look.Consumed (phase : ArrayPhase) (src : Bytes) : Look → Prop
  | .answer p => ListDecoder.Consumed .array phase src p
  | .again phase' rest => ∃ front, src = front ++ rest ∧ Consumes .array phase front [] phase'

theorem consumed_look (eof : Bool) (phase : ArrayPhase) (src : Bytes) :
    (look eof phase src).Consumed phase src := by
  obtain ⟨front, hsrc, hfront⟩ := consumes_skipBlanks .array phase src
  -- What is kept of the buffer as it is without its blanks is kept of the buffer.
  have hanswer {p : Pull} (h : Consumed .array phase (skipBlanks src) p) : Consumed .array phase src p :=
    h.of_skipBlanks
  have hagain {b : UInt8} {rest : Bytes} {phase' : ArrayPhase} (hb : skipBlanks src = b :: rest)
      (h : Consumes .array phase [b] [] phase') : Look.Consumed phase src (.again phase' rest) := by
    refine ⟨front ++ [b], ?_, hfront.append h⟩
    rw [List.append_assoc, List.singleton_append, ← hb]
    exact hsrc
  have hfault {f : ListFault} : Consumed .array phase (skipBlanks src) ⟨.error f, phase, skipBlanks src⟩ :=
    ⟨[], rfl, .nil .array phase⟩
  rw [look]
  cases hskip : skipBlanks src with
  | nil =>
      apply hanswer
      rw [hskip]
      refine ⟨[], ?_, ?_⟩
      · split <;> rfl
      · split
        · next hphase => exact hphase ▸ .nil .array phase
        · cases eof <;> exact .nil .array phase
  | cons b rest =>
      rw [hskip] at hfault
      cases phase with
      | start =>
          by_cases hb : b = 0x5B
          · subst hb
            exact hagain hskip (.opening (.nil .array .first))
          · simp only [if_neg hb]
            exact hanswer (hskip ▸ hfault)
      | first =>
          by_cases hb : b = 0x5D
          · subst hb
            exact hagain hskip (.closing (Or.inl rfl) (.nil .array .done))
          · simp only [if_neg hb]
            exact hanswer (hskip ▸ consumed_pullValue eof (Or.inl rfl) (b :: rest))
      | afterValue =>
          by_cases hb : b = 0x5D
          · subst hb
            exact hagain hskip (.closing (Or.inr rfl) (.nil .array .done))
          · by_cases hcomma : b = 0x2C
            · subst hcomma
              exact hagain hskip (.comma (.nil .array .beforeValue))
            · simp only [if_neg hb, if_neg hcomma]
              exact hanswer (hskip ▸ hfault)
      | beforeValue => exact hanswer (hskip ▸ consumed_pullValue eof (Or.inr rfl) (b :: rest))
      | done => exact hanswer (hskip ▸ hfault)

theorem consumed_looks {n : Nat} (h : looks eof n phase src = some p) : Consumed .array phase src p := by
  induction n generalizing phase src with
  | zero => cases h
  | succ n ih =>
      have hlook := consumed_look eof phase src
      rw [looks] at h
      cases hnext : look eof phase src with
      | answer q =>
          rw [hnext] at h hlook
          exact Option.some.inj h ▸ hlook
      | again phase' rest =>
          rw [hnext] at h hlook
          obtain ⟨front, rfl, hfront⟩ := hlook
          exact (ih h).behind hfront

/-- At the end of the text, only a look behind the array finds that nothing more comes. -/
theorem ended_look (h : look true phase src = .answer p) (hnone : p.result = .ok none) :
    p.rest = [] ∧ p.phase = .done := by
  have hvalue (phase : ArrayPhase) (src : Bytes) : (pullValue true phase src).result ≠ .ok none := by
    rw [pullValue]
    split <;> simp
  rw [look] at h
  cases hskip : skipBlanks src with
  | nil =>
      rw [hskip] at h
      by_cases hphase : phase = .done
      · simp only [if_pos hphase] at h
        cases h
        exact ⟨rfl, rfl⟩
      · simp only [if_neg hphase] at h
        cases h
        cases hnone
  | cons b rest =>
      rw [hskip] at h
      cases phase <;> simp only at h <;> (repeat' split at h) <;> cases h <;>
        first | exact absurd hnone (hvalue _ _) | cases hnone

theorem ended_looks {n : Nat} (h : looks true n phase src = some p) (hnone : p.result = .ok none) :
    p.rest = [] ∧ p.phase = .done := by
  induction n generalizing phase src with
  | zero => cases h
  | succ n ih =>
      rw [looks] at h
      cases hnext : look true phase src with
      | again phase' rest =>
          rw [hnext] at h
          exact ih h
      | answer q =>
          rw [hnext] at h
          obtain rfl := Option.some.inj h
          exact ended_look hnext hnone

/-! ## Calls and drains -/

theorem consumed_pull (d : ListDecoder) (eof : Bool) (src : Bytes) :
    Consumed d.format d.phase src (d.pull eof src) := by
  obtain ⟨format, phase⟩ := d
  cases format with
  | array => exact consumed_looks (looks_eq eof phase src)
  | lines => exact consumed_line eof phase src

theorem ended_pull (h : (d.pull true src).result = .ok none) :
    (d.pull true src).rest = [] ∧ (d.format = .array → (d.pull true src).phase = .done) := by
  obtain ⟨format, phase⟩ := d
  cases format with
  | array =>
      obtain ⟨hrest, hphase⟩ := ended_looks (looks_eq true phase src) h
      exact ⟨hrest, fun _ => hphase⟩
  | lines =>
      have hrest : (nextValue true src).2 = skipBlanks src :=
        rest_of_nextValue fun v hv => nomatch h.symm.trans hv
      exact ⟨hrest.trans (skipBlanks_eq_nil_of_nextValue h), nofun⟩

/-- The loop of a drain, call by call. -/
inductive Drains (eof : Bool) : ListDecoder → Bytes → Drained → Prop where
  | stop {d : ListDecoder} {src : Bytes} (h : (d.pull eof src).result = .ok none) :
      Drains eof d src ⟨[], none, d.moved (d.pull eof src), (d.pull eof src).rest⟩
  | fault {d : ListDecoder} {src : Bytes} {f : ListFault} (h : (d.pull eof src).result = .error f) :
      Drains eof d src ⟨[], some f, d.moved (d.pull eof src), (d.pull eof src).rest⟩
  | next {d : ListDecoder} {src : Bytes} {v : Json} {r : Drained}
      (h : (d.pull eof src).result = .ok (some v))
      (hmore : Drains eof (d.moved (d.pull eof src)) (d.pull eof src).rest r) :
      Drains eof d src { r with values := v :: r.values }

/-- A drain stops, since each document takes a byte at least. -/
theorem drains_drain (d : ListDecoder) (eof : Bool) (src : Bytes) : Drains eof d src (d.drain eof src) := by
  induction hlength : src.length using Nat.strong_induction_on generalizing d src with
  | _ n ih =>
      subst hlength
      cases hresult : (d.pull eof src).result with
      | error f =>
          rw [drain_of_error hresult]
          exact .fault hresult
      | ok found =>
          cases found with
          | none =>
              rw [drain_of_none hresult]
              exact .stop hresult
          | some v =>
              rw [drain_of_some hresult]
              exact .next hresult (ih _ (shortens_pull d eof src v hresult) _ _ rfl)

theorem Drains.consumes {r : Drained} (h : Drains eof d src r) :
    r.decoder.format = d.format ∧
      ∃ front, src = front ++ r.rest ∧ Consumes d.format d.phase front r.values r.decoder.phase := by
  induction h with
  | @stop d src hresult =>
      obtain ⟨front, hsrc, hfront⟩ := consumed_pull d eof src
      rw [Pull.values, hresult] at hfront
      exact ⟨rfl, front, hsrc, hfront⟩
  | @fault d src f hresult =>
      obtain ⟨front, hsrc, hfront⟩ := consumed_pull d eof src
      rw [Pull.values, hresult] at hfront
      exact ⟨rfl, front, hsrc, hfront⟩
  | @next d src v r hresult hmore ih =>
      obtain ⟨front, hsrc, hfront⟩ := consumed_pull d eof src
      obtain ⟨hformat, more, hrest, hmore⟩ := ih
      rw [Pull.values_of_some hresult] at hfront
      refine ⟨hformat, front ++ more, ?_, hfront.append hmore⟩
      rw [List.append_assoc, ← hrest]
      exact hsrc

/-- What a decoder has done: the bytes that it has taken off its buffers, and the documents that it has
given. -/
structure Record where
  decoder : ListDecoder
  taken : Bytes
  values : List Json

namespace Record

def call (x : Record) (eof : Bool) (src : Bytes) : Record :=
  let p := x.decoder.pull eof src
  ⟨x.decoder.moved p, x.taken ++ p.taken src, x.values ++ p.values⟩

/-- What a new decoder has done in some calls. Each finds whatever is in the buffer then. -/
def after (format : ListFormat) (calls : List (Bool × Bytes)) : Record :=
  calls.foldl (fun x c => x.call c.1 c.2) ⟨start format, [], []⟩

/-- The documents that have been given account for the bytes that have been taken. -/
def Accounts (format : ListFormat) (x : Record) : Prop :=
  x.decoder.format = format ∧ Consumes format .start x.taken x.values x.decoder.phase

theorem Accounts.call {x : Record} (h : x.Accounts format) (eof : Bool) (src : Bytes) :
    (x.call eof src).Accounts format := by
  obtain ⟨rfl, hx⟩ := h
  have hcall := consumed_pull x.decoder eof src
  obtain ⟨front, hsrc, hfront⟩ := hcall
  have htaken : (x.decoder.pull eof src).taken src = front := Consumed.taken_eq hsrc
  refine ⟨rfl, ?_⟩
  rw [Record.call, htaken]
  exact hx.append hfront

theorem accounts_after (format : ListFormat) (calls : List (Bool × Bytes)) :
    (after format calls).Accounts format := by
  have hcalls (x : Record) (hx : x.Accounts format) :
      (calls.foldl (fun x c => x.call c.1 c.2) x).Accounts format := by
    induction calls generalizing x with
    | nil => exact hx
    | cons c calls ih => exact ih _ (hx.call c.1 c.2)
  exact hcalls _ ⟨rfl, .nil format .start⟩

end Record

/-! ## Any calls -/

/-- What is true of a single call. -/
structure CallAccounted (d : ListDecoder) (eof : Bool) (src : Bytes) : Prop where
  /-- The loop of an array has its answer after three looks at the most. -/
  ends : d.format = .array → looks eof 3 d.phase src = some (d.pull eof src)
  front : src = (d.pull eof src).taken src ++ (d.pull eof src).rest
  consumes : Consumes d.format d.phase ((d.pull eof src).taken src) (d.pull eof src).values
    (d.pull eof src).phase
  progress : ∀ v, (d.pull eof src).result = .ok (some v) → (d.pull eof src).taken src ≠ []
  between : (∀ v, (d.pull eof src).result ≠ .ok (some v)) →
    ∀ b ∈ (d.pull eof src).taken src, Between d.format b
  empty : eof = true → (d.pull eof src).result = .ok none → (d.pull eof src).rest = []

/-- What is true of a drain. -/
structure DrainAccounted (d : ListDecoder) (eof : Bool) (src : Bytes) : Prop where
  stops : Drains eof d src (d.drain eof src)
  consumes : ∃ front, src = front ++ (d.drain eof src).rest ∧
    Consumes d.format d.phase front (d.drain eof src).values (d.drain eof src).decoder.phase
  length_le : (d.drain eof src).values.length + (d.drain eof src).rest.length ≤ src.length

/-- The bytes that have been taken off end with the bracket that closes the array, and blanks. -/
def Record.Closed (x : Record) : Prop :=
  ∃ front back last, x.taken = front ++ 0x5D :: back ∧ (last = .first ∨ last = .afterValue) ∧
    Consumes .array .start front x.values last ∧ ∀ b ∈ back, isBlankByte b = true

theorem callAccounted (d : ListDecoder) (eof : Bool) (src : Bytes) : CallAccounted d eof src := by
  obtain ⟨front, hsrc, hfront⟩ := consumed_pull d eof src
  have htaken : (d.pull eof src).taken src = front := Consumed.taken_eq hsrc
  constructor
  · intro hformat
    rw [looks_eq, pull, hformat]
  · rw [htaken]
    exact hsrc
  · rw [htaken]
    exact hfront
  · intro v hv
    have hlength := hfront.length_le
    rw [Pull.values_of_some hv, List.length_singleton] at hlength
    rw [htaken]
    exact List.ne_nil_of_length_pos hlength
  · intro hnone
    rw [htaken]
    exact hfront.between (Pull.values_eq_nil hnone)
  · rintro rfl hnone
    exact (ended_pull hnone).1

theorem drainAccounted (d : ListDecoder) (eof : Bool) (src : Bytes) : DrainAccounted d eof src := by
  obtain ⟨-, front, hsrc, hfront⟩ := (drains_drain d eof src).consumes
  refine ⟨drains_drain d eof src, ⟨front, hsrc, hfront⟩, ?_⟩
  have hlength := congrArg List.length hsrc
  rw [List.length_append] at hlength
  have hvalues := hfront.length_le
  omega

theorem closed_of_ended {x : Record} (hx : x.Accounts .array)
    (hnone : (x.decoder.pull true src).result = .ok none) : (x.call true src).Closed := by
  obtain ⟨hformat, hconsumes⟩ := hx.call true src
  have hdone : (x.call true src).decoder.phase = .done := (ended_pull hnone).2 hx.1
  exact hconsumes.exists_closing nofun hdone

/-- Every call of a decoder ends and only takes bytes off the front of its buffer: blanks and
punctuation, and the text of the document that it gives. So a drain stops, and gives at most one document
for each byte; and a call at the end of the text finds that nothing more comes only when the buffer is
empty and, in an array, the closing bracket has been taken off. -/
theorem accounted_after (format : ListFormat) (calls : List (Bool × Bytes)) (eof : Bool) (src : Bytes) :
    let x := Record.after format calls
    CallAccounted x.decoder eof src ∧ (x.call eof src).Accounts format ∧
      (format = .array → eof = true → (x.decoder.pull eof src).result = .ok none →
        (x.call eof src).Closed) ∧
      DrainAccounted x.decoder eof src := by
  intro x
  have hx : x.Accounts format := Record.accounts_after format calls
  refine ⟨callAccounted x.decoder eof src, hx.call eof src, ?_, drainAccounted x.decoder eof src⟩
  rintro rfl rfl hnone
  exact closed_of_ended hx hnone

/-- An array that comes in two pieces: the number waits with its bytes in the buffer, the punctuation
goes. -/
example : (Record.after .array [(false, [0x5B, 0x20, 0x31, 0x32]), (false, [0x31, 0x32, 0x2C])]).taken =
    [0x5B, 0x20, 0x31, 0x32] := by decide

end ListDecoder

end WebResource
