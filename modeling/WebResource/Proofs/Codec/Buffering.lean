import WebResource.Proofs.Codec.Draining
import WebResource.Proofs.Codec.Scanning
import WebResource.Proofs.Json.RoundTrip

namespace WebResource.ListDecoder

/-!
# Lists from a buffer

A decoder reads a document from the front each time it is asked, and leaves it in the buffer while it
is not complete. What it gives is what the list gives that is read byte by byte.
-/

open Json (isBlankByte isDelimiter skipBlanks State Frame)
open ListFormat (give_nil)

variable {format : ListFormat} {eof : Bool} {phase : ArrayPhase} {b : UInt8} {src rest : Bytes}
  {v : Json} {vs : List Json} {r : Option (List Json × ListPlace)} {p : Pull}

/-! ## One document -/

/-- What is made of a buffer that starts with a document, by the reading `r` of the buffer. -/
inductive Takes (format : ListFormat) (eof : Bool) (src : Bytes) (r : Option (List Json × ListPlace)) :
    Except ListFault (Option Json) × Bytes → Prop where
  | found (v : Json) (rest : Bytes)
      (hr : r = give [v] (format.scan (.between format.behind) rest)) : Takes format eof src r (.ok (some v), rest)
  | word (v : Json) (hr : r = some ([v], .afterWord)) : Takes format eof src r (.ok (some v), [])
  | last (v : Json) (s : State) (stack : List Frame) (heof : eof = true)
      (hr : r = some ([], .inside s stack)) (hend : Json.atEnd s stack = .ok v) :
      Takes format eof src r (.ok (some v), [])
  | waiting (s : State) (stack : List Frame) (heof : eof = false)
      (hr : r = some ([], .inside s stack)) (hrange : ¬(ListPlace.inside s stack).OutOfRange) :
      Takes format eof src r (.ok none, src)
  | refused (e : ListFault) (hr : r = none) : Takes format eof src r (.error e, src)
  | stuck (e : Json.ReadError) (s : State) (stack : List Frame) (hr : r = some ([], .inside s stack))
      (hend : Json.atEnd s stack = .error e.fault) (heof : e.fault.isEnd = true → eof = true) :
      Takes format eof src r (.error (.json e), src)

/-- A text that ends inside a document is a number, or could go on, or is a number that is too
large. -/
theorem atEnd_cases (s : State) (stack : List Frame) :
    (∃ v, Json.atEnd s stack = .ok v ∧ v.isNumber = true ∧
        ¬(ListPlace.inside s stack).OutOfRange) ∨
      (∃ f, Json.atEnd s stack = .error f ∧ f.isEnd = true ∧
        ¬(ListPlace.inside s stack).OutOfRange) ∨
      (Json.atEnd s stack = .error .numberOutOfRange ∧ (ListPlace.inside s stack).OutOfRange) := by
  cases s with
  | number negative n =>
      simp only [Json.atEnd, ListPlace.OutOfRange]
      cases hn : n.hasValue with
      | false =>
          rw [Json.Numeral.value_of_hasValue hn]
          exact Or.inr (Or.inl ⟨_, rfl, rfl, by rintro ⟨⟩⟩)
      | true =>
          have hfinished := Json.Numeral.finished_value negative hn
          generalize n.value negative = value at hfinished
          cases hfinished with
          | outOfRange => exact Or.inr (Or.inr ⟨rfl, rfl⟩)
          | number hv =>
              cases stack with
              | nil => exact Or.inl ⟨_, rfl, hv, by rintro ⟨⟩⟩
              | cons f stack => exact Or.inr (Or.inl ⟨_, rfl, Json.isEnd_missing _ _, by rintro ⟨⟩⟩)
  | _ => exact Or.inr (Or.inl ⟨_, rfl, Json.isEnd_missing _ _, id⟩)

theorem takes_ended (format : ListFormat) (eof : Bool) (src : Bytes) (s : State)
    (stack : List Frame) :
    Takes format eof src (some ([], .inside s stack))
      (match Json.atEnd s stack with
        | .ok v => if !eof && v.isNumber then (.ok none, src) else (.ok (some v), [])
        | .error f =>
          if f.isEnd && !eof then (.ok none, src) else (.error (.json (.locate src f src.length)), src)) := by
  rcases atEnd_cases s stack with ⟨v, hend, hv, hrange⟩ | ⟨f, hend, hf, hrange⟩ | ⟨hend, hrange⟩
  · simp only [hend, hv]
    cases eof with
    | false => exact .waiting s stack rfl rfl hrange
    | true => exact .last v s stack rfl rfl hend
  · simp only [hend, hf]
    cases eof with
    | false => exact .waiting s stack rfl rfl hrange
    | true => exact .stuck (.locate src f src.length) s stack rfl hend fun _ => rfl
  · rw [hend]
    exact .stuck (.locate src .numberOutOfRange src.length) s stack rfl hend nofun

theorem takes_value (format : ListFormat) (eof : Bool) (src : Bytes) (shown : Bool)
    (hnumber : rest = [] → v.isNumber = false) :
    Takes format eof src
      (give [v] (format.scan (if shown then .between format.behind else .afterWord) rest))
      (match rest with
        | [] => if !eof && v.isNumber then (.ok none, src) else (.ok (some v), [])
        | c :: more =>
          if shown || isDelimiter c then (.ok (some v), c :: more)
          else (.error (.json (.locate src .trailingCharacters (src.length - more.length))), src)) := by
  cases rest with
  | nil =>
      simp only [hnumber rfl, Bool.and_false, Bool.false_eq_true, if_false]
      cases shown with
      | true => exact .found v [] rfl
      | false => exact .word v rfl
  | cons c rest =>
      cases shown with
      | true => exact .found v (c :: rest) rfl
      | false =>
          have hbehind := ListFormat.scan_afterWord format c rest
          simp only [Bool.false_or, Bool.false_eq_true, if_false]
          cases hc : isDelimiter c with
          | true =>
              rw [hc, if_pos rfl] at hbehind
              exact .found v (c :: rest) (congrArg (give [v]) hbehind)
          | false =>
              rw [hc, if_neg Bool.false_ne_true] at hbehind
              exact .refused _ (congrArg (give [v]) hbehind)

/-- The first document of a buffer, against the reading of the buffer byte by byte. -/
theorem takes_nextValue (format : ListFormat) (eof : Bool) (hblank : isBlankByte b = false)
    (src : Bytes) :
    Takes format eof (b :: src) (format.document (b :: src)) (nextValue eof (b :: src)) := by
  have hbegins := Json.begins_startValue b
  have hstep : Json.step .value [] b = Json.startValue [] b := by simp [Json.step, hblank]
  have hskip : skipBlanks (b :: src) = b :: src := Json.skipBlanks_of_head hblank
  rw [nextValue, hskip, Json.readFirst, hskip, Json.run, hstep, ListFormat.document,
    ListFormat.opened]
  cases hstart : Json.startValue [] b with
  | done v => exact (hstart ▸ hbegins).elim
  | fault f back =>
      have hend : f.isEnd = false := by
        rw [hstart] at hbegins
        exact hbegins
      simp only [Json.ReadError.locate, hend, Bool.false_and, Bool.false_eq_true, if_false]
      exact .refused _ rfl
  | more s stack =>
      rw [hstart] at hbegins
      have hends := Json.ends_run hbegins 1 src
      simp only [Option.bind_some, ListFormat.scan_inside hbegins src 1]
      cases hrun : Json.run s stack 1 src with
      | ended s' stack' =>
          have htakes := takes_ended format eof (b :: src) s' stack'
          simp only
          cases hend : Json.atEnd s' stack' with
          | ok v =>
              rw [hend] at htakes
              exact htakes
          | error f =>
              rw [hend] at htakes
              exact htakes
      | fault f n =>
          have hend : f.isEnd = false := by
            rw [hrun] at hends
            exact hends
          simp only [Json.ReadError.locate, hend, Bool.false_and, Bool.false_eq_true, if_false]
          exact .refused _ rfl
      | value v rest =>
          rw [hrun] at hends
          have htakes := takes_value format eof (b :: src) (Json.isDelimited b) hends
          cases rest with
          | nil => exact htakes
          | cons c rest =>
              simp only at htakes ⊢
              cases hc : Json.isDelimited b || isDelimiter c with
              | true =>
                  rw [hc] at htakes
                  exact htakes
              | false =>
                  rw [hc] at htakes
                  exact htakes

/-! ## Calls of a decoder -/

/-- Where a decoder stands that has nothing in its buffer. -/
def placeAt : ListFormat → ArrayPhase → ListPlace
  | .array, phase => .between phase
  | .lines, _ => .between .start

/-- What a call gives, against the reading `r` of the buffer byte by byte. -/
inductive Reads (format : ListFormat) (eof : Bool) (r : Option (List Json × ListPlace)) (p : Pull) :
    Prop where
  | found (v : Json) (hresult : p.result = .ok (some v))
      (hr : r = give [v] (format.scan (placeAt format p.phase) p.rest))
  | word (v : Json) (hresult : p.result = .ok (some v)) (hr : r = some ([v], .afterWord))
      (hrest : p.rest = []) (hphase : placeAt format p.phase = .between format.behind)
  | last (v : Json) (s : State) (stack : List Frame) (heof : eof = true)
      (hresult : p.result = .ok (some v)) (hr : r = some ([], .inside s stack))
      (hend : Json.atEnd s stack = .ok v) (hrest : p.rest = [])
      (hphase : placeAt format p.phase = .between format.behind)
  | waiting (q : ListPlace) (hresult : p.result = .ok none) (hr : r = some ([], q))
      (hrest : format.scan (placeAt format p.phase) p.rest = some ([], q))
      (hend : eof = true → format.finish q = some []) (hrange : ¬q.OutOfRange)
      (hsettled : format.settled q = q)
  | refused (f : ListFault) (hresult : p.result = .error f) (hr : r = none)
  | stuck (f : ListFault) (q : ListPlace) (hresult : p.result = .error f) (hr : r = some ([], q))
      (heof : eof = true) (hend : format.finish q = none)
  | outOfRange (e : Json.ReadError) (q : ListPlace) (hresult : p.result = .error (.json e))
      (hr : r = some ([], q)) (heof : eof = false) (hfault : e.fault = .numberOutOfRange)
      (hrange : q.OutOfRange)

theorem finish_of_error {s : State} {stack : List Frame} {f : Json.Fault}
    (h : Json.atEnd s stack = .error f) : format.finish (.inside s stack) = none := by
  cases format with
  | array => rfl
  | lines => simp [ListFormat.finish, h, Except.toOption]

/-- A document that cannot go on: at the end of the text because it is not complete, before it
because it is a number that is too large. -/
theorem reads_stuck {e : Json.ReadError} {s : State} {stack : List Frame}
    (hresult : p.result = .error (.json e)) (hr : r = some ([], .inside s stack))
    (hend : Json.atEnd s stack = .error e.fault) (heof : e.fault.isEnd = true → eof = true) :
    Reads format eof r p := by
  cases eof with
  | true => exact .stuck _ _ hresult hr rfl (finish_of_error hend)
  | false =>
      rcases atEnd_cases s stack with ⟨v, hv, -, -⟩ | ⟨f, hf, hmend, -⟩ | ⟨hf, hrange⟩
      · exact absurd (hend.symm.trans hv) nofun
      · obtain rfl := Except.error.inj (hend.symm.trans hf)
        exact absurd (heof hmend) Bool.false_ne_true
      · exact .outOfRange e _ hresult hr rfl (Except.error.inj (hend.symm.trans hf)) hrange

/-- A call that hands on what has been made of the document in front of the buffer. -/
theorem reads_of_takes {x : Except ListFault (Option Json) × Bytes} (htakes : Takes format eof src r x)
    (hfound : ∀ v rest, x = (.ok (some v), rest) → p.result = .ok (some v) ∧ p.rest = rest ∧
      placeAt format p.phase = .between format.behind)
    (hwaiting : eof = false → x = (.ok none, src) → p.result = .ok none ∧
      format.scan (placeAt format p.phase) p.rest = r)
    (hfault : ∀ f rest, x = (.error f, rest) → p.result = .error f) :
    Reads format eof r p := by
  cases htakes with
  | found v rest hr =>
      obtain ⟨hresult, rfl, hphase⟩ := hfound v rest rfl
      exact .found v hresult (hphase ▸ hr)
  | word v hr =>
      obtain ⟨hresult, hrest, hphase⟩ := hfound v [] rfl
      exact .word v hresult hr hrest hphase
  | last v s stack heof hr hend =>
      obtain ⟨hresult, hrest, hphase⟩ := hfound v [] rfl
      exact .last v s stack heof hresult hr hend hrest hphase
  | waiting s stack heof hr hrange =>
      obtain ⟨hresult, hscan⟩ := hwaiting heof rfl
      exact .waiting _ hresult hr (hscan.trans hr) (fun h => absurd (heof.symm.trans h) nofun) hrange rfl
  | refused f hr => exact .refused f (hfault f src rfl) hr
  | stuck e s stack hr hend heof => exact reads_stuck (hfault _ src rfl) hr hend heof

theorem reads_pullValue (hblank : isBlankByte b = false)
    (hdocument : ListFormat.scan .array (.between phase) (b :: src) =
      ListFormat.document .array (b :: src)) :
    Reads .array eof (ListFormat.scan .array (.between phase) (b :: src))
      (pullValue eof phase (b :: src)) := by
  have htakes := takes_nextValue .array eof hblank src
  rw [← hdocument] at htakes
  rw [pullValue]
  generalize nextValue eof (b :: src) = x at htakes
  refine reads_of_takes htakes ?_ ?_ ?_
  · rintro v rest rfl
    exact ⟨rfl, rfl, rfl⟩
  · rintro rfl rfl
    exact ⟨rfl, rfl⟩
  · rintro f rest rfl
    rfl

theorem nextValue_skipBlanks (eof : Bool) (src : Bytes) :
    nextValue eof (skipBlanks src) = nextValue eof src := by
  have hskip : skipBlanks (skipBlanks src) = skipBlanks src := by
    cases hsrc : skipBlanks src with
    | nil => rfl
    | cons b rest => exact Json.skipBlanks_of_head (ListFormat.isBlankByte_of_skipBlanks hsrc)
  rw [nextValue, nextValue, hskip]

theorem reads_nextValue (phase : ArrayPhase) (src : Bytes) :
    Reads .lines eof (ListFormat.scan .lines (.between .start) src)
      ⟨(nextValue eof src).1, phase, (nextValue eof src).2⟩ := by
  rw [← ListFormat.scan_skipBlanks, ← nextValue_skipBlanks]
  cases hsrc : skipBlanks src with
  | nil => exact .waiting (.between .start) rfl rfl rfl (fun _ => rfl) id rfl
  | cons b rest =>
      have hblank := ListFormat.isBlankByte_of_skipBlanks hsrc
      have hdocument : ListFormat.scan .lines (.between .start) (b :: rest) =
          ListFormat.document .lines (b :: rest) := by
        rw [ListFormat.scan_between, ListFormat.stepBetween, hblank]
        rfl
      have htakes := takes_nextValue .lines eof hblank rest
      rw [← hdocument] at htakes
      generalize nextValue eof (b :: rest) = x at htakes
      refine reads_of_takes htakes ?_ ?_ ?_
      · rintro v rest rfl
        exact ⟨rfl, rfl, rfl⟩
      · rintro rfl rfl
        exact ⟨rfl, rfl⟩
      · rintro f rest rfl
        rfl

theorem reads_starved (hphase : phase ≠ .done) :
    Reads .array eof (some ([], .between phase)) (starved eof phase) := by
  cases eof with
  | true =>
      refine .stuck .unexpectedEnd (.between phase) rfl rfl rfl ?_
      cases phase <;> first | rfl | exact absurd rfl hphase
  | false => exact .waiting (.between phase) rfl rfl rfl nofun id rfl

theorem reads_pullDone (eof : Bool) (src : Bytes) :
    Reads .array eof (ListFormat.scan .array (.between .done) src) (pullDone src) := by
  rw [← ListFormat.scan_skipBlanks, pullDone]
  cases hsrc : skipBlanks src with
  | nil => exact .waiting (.between .done) rfl rfl rfl (fun _ => rfl) id rfl
  | cons b rest =>
      have hblank := ListFormat.isBlankByte_of_skipBlanks hsrc
      refine .refused _ rfl ?_
      rw [ListFormat.scan_between, ListFormat.stepBetween, hblank]
      rfl

theorem reads_pullBeforeValue (eof : Bool) (src : Bytes) :
    Reads .array eof (ListFormat.scan .array (.between .beforeValue) src) (pullBeforeValue eof src) := by
  rw [← ListFormat.scan_skipBlanks, pullBeforeValue]
  cases hsrc : skipBlanks src with
  | nil => exact reads_starved (by decide)
  | cons b rest =>
      have hblank := ListFormat.isBlankByte_of_skipBlanks hsrc
      refine reads_pullValue hblank ?_
      rw [ListFormat.scan_between, ListFormat.stepBetween, hblank]
      rfl

theorem reads_pullFirst (eof : Bool) (src : Bytes) :
    Reads .array eof (ListFormat.scan .array (.between .first) src) (pullFirst eof src) := by
  rw [← ListFormat.scan_skipBlanks, pullFirst]
  cases hsrc : skipBlanks src with
  | nil => exact reads_starved (by decide)
  | cons b rest =>
      have hblank := ListFormat.isBlankByte_of_skipBlanks hsrc
      have hstep : ListFormat.stepBetween .array .first b =
          if b = 0x5D then some (.between .done) else ListFormat.opened b := by
        rw [ListFormat.stepBetween, hblank]
        rfl
      by_cases hb : b = 0x5D
      · simp only [if_pos hb, ListFormat.scan_between, hstep, Option.bind_some]
        exact reads_pullDone eof rest
      · simp only [if_neg hb]
        refine reads_pullValue hblank ?_
        rw [ListFormat.scan_between, hstep, if_neg hb]
        rfl

theorem reads_pullAfterValue (eof : Bool) (src : Bytes) :
    Reads .array eof (ListFormat.scan .array (.between .afterValue) src) (pullAfterValue eof src) := by
  rw [← ListFormat.scan_skipBlanks, pullAfterValue]
  cases hsrc : skipBlanks src with
  | nil => exact reads_starved (by decide)
  | cons b rest =>
      have hblank := ListFormat.isBlankByte_of_skipBlanks hsrc
      have hstep : ListFormat.stepBetween .array .afterValue b =
          if b = 0x5D then some (.between .done)
          else if b = 0x2C then some (.between .beforeValue) else none := by
        rw [ListFormat.stepBetween, hblank]
        rfl
      rw [ListFormat.scan_between, hstep]
      by_cases hb : b = 0x5D
      · simp only [if_pos hb, Option.bind_some]
        exact reads_pullDone eof rest
      by_cases hc : b = 0x2C
      · simp only [if_neg hb, if_pos hc, Option.bind_some]
        exact reads_pullBeforeValue eof rest
      · simp only [if_neg hb, if_neg hc]
        exact .refused _ rfl rfl

theorem reads_pullStart (eof : Bool) (src : Bytes) :
    Reads .array eof (ListFormat.scan .array (.between .start) src) (pullStart eof src) := by
  rw [← ListFormat.scan_skipBlanks, pullStart]
  cases hsrc : skipBlanks src with
  | nil => exact reads_starved (by decide)
  | cons b rest =>
      have hblank := ListFormat.isBlankByte_of_skipBlanks hsrc
      have hstep : ListFormat.stepBetween .array .start b =
          if b = 0x5B then some (.between .first) else none := by
        rw [ListFormat.stepBetween, hblank]
        rfl
      rw [ListFormat.scan_between, hstep]
      by_cases hb : b = 0x5B
      · simp only [if_pos hb, Option.bind_some]
        exact reads_pullFirst eof rest
      · simp only [if_neg hb]
        exact .refused _ rfl rfl

def place (d : ListDecoder) : ListPlace := placeAt d.format d.phase

/-- A call of a decoder, against the reading of its buffer byte by byte. -/
theorem reads_pull (d : ListDecoder) (eof : Bool) (src : Bytes) :
    Reads d.format eof (d.format.scan d.place src) (d.pull eof src) := by
  obtain ⟨format, phase⟩ := d
  cases format with
  | array =>
      cases phase with
      | start => exact reads_pullStart eof src
      | first => exact reads_pullFirst eof src
      | afterValue => exact reads_pullAfterValue eof src
      | beforeValue => exact reads_pullBeforeValue eof src
      | done => exact reads_pullDone eof src
  | lines => exact reads_nextValue phase src

/-! ## Drained buffers -/

/-- The documents of a drain that has met no fault. -/
def Drained.documents? (x : Drained) : Option (List Json) :=
  match x.fault with
  | none => some x.values
  | some _ => none

theorem documents?_append (ws : List Json) (x : Drained) :
    { x with values := ws ++ x.values }.documents? = x.documents?.map (ws ++ ·) := by
  obtain ⟨values, fault, d, rest⟩ := x
  cases fault <;> rfl

/-- A drain at the end of the text gives the documents of the text, or a fault if it is no list. -/
theorem documents?_drain_true (d : ListDecoder) (src : Bytes) :
    (d.drain true src).documents? = d.format.complete d.place src := by
  -- By induction on the buffer, from which each document takes a byte.
  induction hlength : src.length using Nat.strongRecOn generalizing d src with
  | ind n ih =>
    have hshort := shortens_pull d true src
    have hnext (v : Json) (hresult : (d.pull true src).result = .ok (some v)) :
        (d.drain true src).documents? = (d.format.complete (placeAt d.format (d.pull true src).phase)
          (d.pull true src).rest).map ([v] ++ ·) := by
      rw [drain_of_some hresult]
      refine (documents?_append [v] _).trans (congrArg _ ?_)
      exact ih _ (hlength ▸ hshort v hresult) (d.moved (d.pull true src)) _ rfl
    cases reads_pull d true src with
    | found v hresult hr => rw [hnext v hresult, ListFormat.complete_of_scan hr]
    | word v hresult hr hrest hphase =>
        rw [hnext v hresult, hrest, hphase, ListFormat.complete_nil, ListFormat.complete, hr]
        exact congrArg _ (ListFormat.finish_settled d.format .afterWord)
    | last v s stack heof hresult hr hend hrest hphase =>
        rw [hnext v hresult, hrest, hphase, ListFormat.complete_nil, ListFormat.complete, hr]
        cases d.format with
        | array => rfl
        | lines => simp [ListFormat.finish, hend, Except.toOption]
    | waiting q hresult hr hrest hend hrange hsettled =>
        rw [drain_of_none hresult, ListFormat.complete, hr, Option.bind_some, hend rfl]
        rfl
    | refused f hresult hr =>
        rw [drain_of_error hresult, ListFormat.complete, hr]
        rfl
    | stuck f q hresult hr heof hend =>
        rw [drain_of_error hresult, ListFormat.complete, hr, Option.bind_some, hend]
        rfl
    | outOfRange e q hresult hr heof hfault hrange => cases heof

/-- A decoder that has read its buffer to the place `p`, and stands behind a word there as it stands
behind any document. -/
structure Stands (format : ListFormat) (d : ListDecoder) (buffer : Bytes) (p : ListPlace) : Prop where
  hformat : d.format = format
  hreads : format.scan d.place buffer = some ([], p)
  hsettled : format.settled p = p
  hrange : ¬p.OutOfRange

theorem stands_start (format : ListFormat) : Stands format (start format) [] (.between .start) := by
  cases format <;> exact ⟨rfl, rfl, rfl, nofun⟩

/-- What a drain gives before the end of the text, against the reading `r` of the buffer byte by
byte. -/
inductive Rests (format : ListFormat) (r : Option (List Json × ListPlace)) (x : Drained) : Prop where
  | rested (q : ListPlace) (hfault : x.fault = none) (hr : r = some (x.values, q))
      (hstands : Stands format x.decoder x.rest (format.settled q))
  | refused (f : ListFault) (hfault : x.fault = some f) (hr : r = none)
  | outOfRange (e : Json.ReadError) (vs : List Json) (q : ListPlace)
      (hfault : x.fault = some (.json e)) (hr : r = some (vs, q))
      (he : e.fault = .numberOutOfRange) (hrange : q.OutOfRange)

theorem Rests.push {x : Drained} (h : Rests format r x) (v : Json) :
    Rests format (give [v] r) { x with values := v :: x.values } := by
  cases h with
  | rested q hfault hr hstands => exact .rested q hfault (by rw [hr]; rfl) hstands
  | refused f hfault hr => exact .refused f hfault (by rw [hr]; rfl)
  | outOfRange e vs q hfault hr he hrange =>
      exact .outOfRange e (v :: vs) q hfault (by rw [hr]; rfl) he hrange

theorem rests_drain (d : ListDecoder) (src : Bytes) :
    Rests d.format (d.format.scan d.place src) (d.drain false src) := by
  induction hlength : src.length using Nat.strongRecOn generalizing d src with
  | ind n ih =>
    have hshort := shortens_pull d false src
    have hnext (v : Json) (hresult : (d.pull false src).result = .ok (some v)) :
        Rests d.format (give [v] (d.format.scan (placeAt d.format (d.pull false src).phase)
          (d.pull false src).rest)) (d.drain false src) := by
      rw [drain_of_some hresult]
      exact (ih _ (hlength ▸ hshort v hresult) (d.moved (d.pull false src)) _ rfl).push v
    cases reads_pull d false src with
    | found v hresult hr =>
        rw [hr]
        exact hnext v hresult
    | word v hresult hr hrest hphase =>
        have hrests := hnext v hresult
        rw [hrest, hphase] at hrests
        rw [hr]
        cases hrests with
        | rested q hfault hq hstands =>
            obtain ⟨hvalues, rfl⟩ := Prod.mk.inj (Option.some.inj hq)
            exact .rested .afterWord hfault (by rw [← hvalues]; rfl) hstands
        | refused f hfault hq => cases hq
        | outOfRange e vs q hfault hq he hrange =>
            obtain ⟨-, rfl⟩ := Prod.mk.inj (Option.some.inj hq)
            exact hrange.elim
    | last v s stack heof hresult hr hend hrest hphase => cases heof
    | waiting q hresult hr hrest hend hrange hsettled =>
        rw [drain_of_none hresult, hr]
        refine .rested q rfl rfl ?_
        rw [hsettled]
        exact ⟨rfl, hrest, hsettled, hrange⟩
    | refused f hresult hr =>
        rw [drain_of_error hresult, hr]
        exact .refused f rfl rfl
    | stuck f q hresult hr heof hend => cases heof
    | outOfRange e q hresult hr heof hfault hrange =>
        rw [drain_of_error hresult, hr]
        exact .outOfRange e [] q rfl rfl hfault hrange

end WebResource.ListDecoder
