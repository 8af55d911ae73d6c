import WebResource.Proofs.Codec.Draining
import WebResource.Proofs.Json.RoundTrip

namespace WebResource

/-!
# Lists that arrive in pieces

However the text of a list is cut, the decoder gives the documents of the list: each piece takes it
from one place of the text to another, and at each place it knows what is still to come.
-/

namespace Json

variable {bs cs rest : Bytes} {b : UInt8} {v : Json}

theorem skipBlanks_of_append (h : skipBlanks (bs ++ cs) = bs ++ cs) : skipBlanks bs = bs := by
  cases bs with
  | nil => rfl
  | cons b bs =>
      cases hblank : isBlankByte b with
      | false => exact skipBlanks_of_head hblank
      | true =>
          have hle := length_skipBlanks_le (bs ++ cs)
          rw [List.cons_append, skipBlanks, List.dropWhile_cons_of_pos hblank] at h
          rw [skipBlanks, h, List.length_cons] at hle
          omega

theorem isDelimiter_of_endsValue (h : EndsValue b) : isDelimiter b = true := by
  rcases h with rfl | rfl | rfl | rfl <;> rfl

theorem readFirst_render_followed (h : Readable v) (hb : EndsValue b) :
    readFirst (render v ++ b :: rest) = .ok (some (v, b :: rest)) := by
  obtain ⟨first, more, hmore, -, -⟩ := head_render h.1
  have hskip := skipBlanks_render h.1 (b :: rest)
  rw [readFirst, hskip, run_render_followed h hb, hmore, List.cons_append]
  simp only [isDelimiter_of_endsValue hb, Bool.or_true, if_true]

theorem readFirst_render (h : Readable v) : readFirst (render v) = .ok (some (v, [])) := by
  obtain ⟨first, more, hmore, -, -⟩ := head_render h.1
  have hskip := skipBlanks_render h.1 []
  rw [List.append_nil] at hskip
  rw [readFirst, hskip]
  rcases run_render h 0 with hrun | ⟨s, stack, hrun, hend, -⟩
  · rw [hrun, hmore]
  · rw [hrun, hmore]
    simp only [hend]

/-- The front of a document reads as an integer, as nothing, or as a text that ends early. -/
theorem readFirst_front (h : Readable v) (hsplit : render v = bs ++ cs) (hcs : cs ≠ []) :
    readFirst bs = .ok none ∨ (∃ i, readFirst bs = .ok (some (.int i, []))) ∨
      ∃ e, readFirst bs = .error e ∧ e.fault.isEnd = true := by
  have hskip := skipBlanks_render h.1 []
  rw [List.append_nil, hsplit] at hskip
  rw [readFirst, skipBlanks_of_append hskip]
  cases bs with
  | nil => exact Or.inl rfl
  | cons b bs =>
      obtain ⟨s, stack, hrun, hend⟩ := run_front h hsplit hcs 0
      rw [hrun]
      rcases hend with ⟨i, hi⟩ | ⟨f, hf, hmend⟩
      · exact Or.inr (Or.inl ⟨i, by simp only [hi]⟩)
      · exact Or.inr (Or.inr ⟨.locate (b :: bs) f (b :: bs).length, by simp only [hf], hmend⟩)

end Json

namespace ListDecoder

open Json (Readable render renderItems EndsValue skipBlanks)

variable {d : ListDecoder} {eof : Bool} {phase : ArrayPhase} {format : ListFormat}
  {buffer future rest : Bytes} {b : UInt8} {v : Json} {vs : List Json}

/-! ## One document -/

theorem nextValue_of_blank (h : skipBlanks buffer = []) : nextValue eof buffer = (.ok none, []) := by
  rw [nextValue, h]
  rfl

theorem nextValue_render (hv : Readable v) :
    nextValue false (render v) = (.ok (some v), []) ∨
      nextValue false (render v) = (.ok none, render v) := by
  have hblank := Json.skipBlanks_render hv.1 []
  rw [List.append_nil] at hblank
  rw [nextValue, hblank, Json.readFirst_render hv]
  cases hnumber : v.isNumber <;> simp [hnumber]

theorem nextValue_render_followed (hv : Readable v) (hb : EndsValue b) :
    nextValue eof (render v ++ b :: rest) = (.ok (some v), b :: rest) := by
  rw [nextValue, Json.skipBlanks_render hv.1, Json.readFirst_render_followed hv hb]
  rfl

theorem nextValue_front (hv : Readable v) {back : Bytes} (hsplit : render v = buffer ++ back)
    (hback : back ≠ []) : nextValue false buffer = (.ok none, buffer) := by
  have hblank := Json.skipBlanks_render hv.1 []
  rw [List.append_nil, hsplit] at hblank
  rw [nextValue, Json.skipBlanks_of_append hblank]
  rcases Json.readFirst_front hv hsplit hback with hread | ⟨i, hread⟩ | ⟨e, hread, hmend⟩
  · rw [hread]
  · rw [hread]
    rfl
  · rw [hread]
    simp [hmend]

/-- Where the text to come starts with a document, a pull gives the document or waits for the rest
of it; it waits only if there is a rest to come. -/
theorem nextValue_of_document (hv : Readable v) (hb : EndsValue b)
    (hsplit : render v ++ b :: rest = buffer ++ future) (heof : eof = true → future = []) :
    (∃ after, nextValue eof buffer = (.ok (some v), after) ∧ after ++ future = b :: rest) ∨
      (nextValue eof buffer = (.ok none, buffer) ∧ eof = false) := by
  have hmore (hne : future ≠ []) : eof = false :=
    Bool.eq_false_iff.mpr fun htrue => hne (heof htrue)
  -- The buffer reaches to the end of the document or beyond, or only into the document.
  rcases List.append_eq_append_iff.mp hsplit with ⟨after, rfl, hafter⟩ | ⟨back, hfront, rfl⟩
  · cases after with
    | nil =>
        rw [List.nil_append] at hafter
        obtain rfl := hmore (hafter ▸ List.cons_ne_nil b rest)
        rw [List.append_nil]
        rcases nextValue_render hv with hnext | hnext
        · exact Or.inl ⟨[], hnext, hafter.symm⟩
        · exact Or.inr ⟨hnext, rfl⟩
    | cons c after =>
        obtain ⟨rfl, rfl⟩ := List.cons.inj hafter
        exact Or.inl ⟨b :: after, nextValue_render_followed hv hb, rfl⟩
  · obtain rfl := hmore (by simp)
    by_cases hback : back = []
    · subst hback
      rw [List.append_nil] at hfront
      subst hfront
      rcases nextValue_render hv with hnext | hnext
      · exact Or.inl ⟨[], hnext, rfl⟩
      · exact Or.inr ⟨hnext, rfl⟩
    · exact Or.inr ⟨nextValue_front hv hfront hback, rfl⟩

/-! ## Places in a list -/

/-- The text of an array behind one of its documents. -/
def behind : List Json → Bytes
  | [] => [0x5D]
  | v :: vs => 0x2C :: renderItems (v :: vs)

/-- The documents of a list, each on a line. -/
def lines (vs : List Json) : Bytes := vs.flatMap fun v => render v ++ [0x0A]

theorem renderItems_cons (v : Json) (vs : List Json) :
    renderItems (v :: vs) = render v ++ behind vs := by
  cases vs with
  | nil => rw [renderItems, behind]
  | cons w vs => rw [renderItems, behind]

theorem lines_cons (v : Json) (vs : List Json) : lines (v :: vs) = render v ++ 0x0A :: lines vs := by
  rw [lines, List.flatMap_cons, List.append_assoc, List.singleton_append, lines]

theorem behind_eq_cons (vs : List Json) : ∃ b more, behind vs = b :: more ∧ EndsValue b := by
  cases vs with
  | nil => exact ⟨_, _, rfl, Or.inr (Or.inl rfl)⟩
  | cons v vs => exact ⟨_, _, rfl, Or.inl rfl⟩

/-- A text to come, for each place of a decoder: the documents that are still to be given are in
it. -/
inductive Pending : ListDecoder → Bytes → List Json → Prop where
  | start (vs : List Json) : Pending ⟨.array, .start⟩ (0x5B :: renderItems vs) vs
  | first (vs : List Json) : Pending ⟨.array, .first⟩ (renderItems vs) vs
  | beforeValue (v : Json) (vs : List Json) :
      Pending ⟨.array, .beforeValue⟩ (renderItems (v :: vs)) (v :: vs)
  | afterValue (vs : List Json) : Pending ⟨.array, .afterValue⟩ (behind vs) vs
  | done : Pending ⟨.array, .done⟩ [] []
  | line (phase : ArrayPhase) (vs : List Json) : Pending ⟨.lines, phase⟩ (lines vs) vs
  | newline (phase : ArrayPhase) (vs : List Json) : Pending ⟨.lines, phase⟩ (0x0A :: lines vs) vs

def text : ListFormat → List Json → Bytes
  | .array, vs => render (.arr vs)
  | .lines, vs => lines vs

theorem pending_text (format : ListFormat) (vs : List Json) :
    Pending (start format) (text format vs) vs := by
  cases format with
  | array =>
      rw [text, render]
      exact .start vs
  | lines => exact .line .start vs

/-- A pull that gives the next of the documents to come or waits, with the text to come in the
places after it. At the end of the text nothing is left to wait for. -/
inductive Advances (eof : Bool) (future : Bytes) (format : ListFormat) (p : Pull) :
    List Json → Prop where
  | found (v : Json) (vs : List Json) (hresult : p.result = .ok (some v))
      (hpending : Pending ⟨format, p.phase⟩ (p.rest ++ future) vs) : Advances eof future format p (v :: vs)
  | waiting (vs : List Json) (hresult : p.result = .ok none)
      (hpending : Pending ⟨format, p.phase⟩ (p.rest ++ future) vs)
      (hend : eof = true → vs = [] ∧ p.rest = []) : Advances eof future format p vs

theorem advances_starved {text : Bytes} (hpending : Pending ⟨.array, phase⟩ text vs)
    (htext : text = future) (hne : text ≠ []) (heof : eof = true → future = []) :
    Advances eof future .array (starved eof phase) vs := by
  subst htext
  cases eof with
  | true => exact absurd (heof rfl) hne
  | false => exact .waiting vs rfl hpending nofun

theorem advances_pullDone (hsplit : [] = buffer ++ future) :
    Advances eof future .array (pullDone buffer) [] := by
  obtain ⟨rfl, rfl⟩ := List.append_eq_nil_iff.mp hsplit.symm
  exact .waiting [] rfl .done fun _ => ⟨rfl, rfl⟩

theorem advances_pullValue (hv : Readable v) (hsplit : renderItems (v :: vs) = buffer ++ future)
    (hpending : Pending ⟨.array, phase⟩ (renderItems (v :: vs)) (v :: vs))
    (heof : eof = true → future = []) :
    Advances eof future .array (pullValue eof phase buffer) (v :: vs) := by
  obtain ⟨b, more, hbehind, hb⟩ := behind_eq_cons vs
  have htext : render v ++ b :: more = buffer ++ future := by
    rw [← hbehind, ← renderItems_cons, hsplit]
  rw [pullValue]
  rcases nextValue_of_document hv hb htext heof with ⟨after, hnext, hafter⟩ | ⟨hnext, rfl⟩
  · rw [hnext]
    refine .found v vs rfl ?_
    have hplace := Pending.afterValue vs
    rwa [hbehind, ← hafter] at hplace
  · rw [hnext]
    exact .waiting (v :: vs) rfl (hsplit ▸ hpending) fun h => absurd h Bool.false_ne_true

theorem skipBlanks_renderItems (hvs : ∀ v ∈ vs, Readable v) :
    skipBlanks (renderItems vs) = renderItems vs := by
  cases vs with
  | nil => rfl
  | cons v vs =>
      rw [renderItems_cons]
      exact Json.skipBlanks_render (hvs v List.mem_cons_self).1 _

theorem renderItems_ne_nil (vs : List Json) : renderItems vs ≠ [] := by
  cases vs with
  | nil => exact List.cons_ne_nil _ _
  | cons v vs =>
      obtain ⟨b, more, hbehind, -⟩ := behind_eq_cons vs
      rw [renderItems_cons, hbehind]
      simp

theorem advances_pullBeforeValue (hvs : ∀ w ∈ v :: vs, Readable w)
    (hsplit : renderItems (v :: vs) = buffer ++ future) (heof : eof = true → future = []) :
    Advances eof future .array (pullBeforeValue eof buffer) (v :: vs) := by
  have hblank := Json.skipBlanks_of_append (hsplit ▸ skipBlanks_renderItems hvs)
  rw [pullBeforeValue, hblank]
  cases buffer with
  | nil => exact advances_starved (.beforeValue v vs) hsplit (renderItems_ne_nil _) heof
  | cons b buffer =>
      exact advances_pullValue (hvs v List.mem_cons_self) hsplit (.beforeValue v vs) heof

theorem advances_pullFirst (hvs : ∀ w ∈ vs, Readable w) (hsplit : renderItems vs = buffer ++ future)
    (heof : eof = true → future = []) :
    Advances eof future .array (pullFirst eof buffer) vs := by
  have hblank := Json.skipBlanks_of_append (hsplit ▸ skipBlanks_renderItems hvs)
  rw [pullFirst, hblank]
  cases buffer with
  | nil => exact advances_starved (.first vs) hsplit (renderItems_ne_nil _) heof
  | cons b buffer =>
      cases vs with
      | nil =>
          obtain ⟨rfl, hrest⟩ := List.cons.inj hsplit
          exact advances_pullDone hrest
      | cons v vs =>
          obtain ⟨c, more, hmore, -, hc⟩ := Json.head_render (hvs v List.mem_cons_self).1
          have hb : b ≠ 0x5D := by
            rw [renderItems_cons, hmore] at hsplit
            exact (List.cons.inj hsplit).1 ▸ hc
          simp only [if_neg hb]
          exact advances_pullValue (hvs v List.mem_cons_self) hsplit (.first (v :: vs)) heof

theorem advances_pullAfterValue (hvs : ∀ w ∈ vs, Readable w) (hsplit : behind vs = buffer ++ future)
    (heof : eof = true → future = []) :
    Advances eof future .array (pullAfterValue eof buffer) vs := by
  have hne : behind vs ≠ [] := by
    obtain ⟨b, more, hbehind, -⟩ := behind_eq_cons vs
    rw [hbehind]
    exact List.cons_ne_nil b more
  cases buffer with
  | nil => exact advances_starved (.afterValue vs) hsplit hne heof
  | cons b buffer =>
      cases vs with
      | nil =>
          obtain ⟨rfl, hrest⟩ := List.cons.inj hsplit
          exact advances_pullDone hrest
      | cons v vs =>
          obtain ⟨rfl, hrest⟩ := List.cons.inj hsplit
          exact advances_pullBeforeValue hvs hrest heof

theorem advances_pullStart (hvs : ∀ w ∈ vs, Readable w)
    (hsplit : 0x5B :: renderItems vs = buffer ++ future) (heof : eof = true → future = []) :
    Advances eof future .array (pullStart eof buffer) vs := by
  cases buffer with
  | nil => exact advances_starved (.start vs) hsplit (List.cons_ne_nil _ _) heof
  | cons b buffer =>
      obtain ⟨rfl, hrest⟩ := List.cons.inj hsplit
      exact advances_pullFirst hvs hrest heof

theorem advances_nextValue_lines (hvs : ∀ w ∈ vs, Readable w) (hsplit : lines vs = buffer ++ future)
    (heof : eof = true → future = []) :
    Advances eof future .lines ⟨(nextValue eof buffer).1, phase, (nextValue eof buffer).2⟩ vs := by
  cases vs with
  | nil =>
      obtain ⟨rfl, rfl⟩ := List.append_eq_nil_iff.mp hsplit.symm
      rw [nextValue_of_blank rfl]
      exact .waiting [] rfl (.line phase []) fun _ => ⟨rfl, rfl⟩
  | cons v vs =>
      have hline := hsplit
      rw [lines_cons] at hline
      rcases nextValue_of_document (hvs v List.mem_cons_self) (Or.inr (Or.inr (Or.inr rfl))) hline heof
        with ⟨after, hnext, hafter⟩ | ⟨hnext, rfl⟩
      · rw [hnext]
        exact .found v vs rfl (hafter ▸ .newline phase vs)
      · rw [hnext]
        exact .waiting (v :: vs) rfl (hsplit ▸ .line phase (v :: vs)) nofun

theorem advances_pull (eof : Bool) (future : Bytes) {text : Bytes} (hvs : ∀ w ∈ vs, Readable w)
    (hpending : Pending d text vs) (hsplit : text = buffer ++ future)
    (heof : eof = true → future = []) :
    Advances eof future d.format (d.pull eof buffer) vs := by
  cases hpending with
  | start => exact advances_pullStart hvs hsplit heof
  | first => exact advances_pullFirst hvs hsplit heof
  | beforeValue => exact advances_pullBeforeValue hvs hsplit heof
  | afterValue => exact advances_pullAfterValue hvs hsplit heof
  | done => exact advances_pullDone hsplit
  | line => exact advances_nextValue_lines hvs hsplit heof
  | newline phase =>
      cases buffer with
      | nil =>
          obtain rfl : eof = false :=
            Bool.eq_false_iff.mpr fun htrue => by
              rw [heof htrue] at hsplit
              cases hsplit
          exact .waiting vs rfl (hsplit ▸ .newline phase vs) nofun
      | cons b buffer =>
          obtain ⟨rfl, hrest⟩ := List.cons.inj hsplit
          have hline : Advances eof future .lines
              ⟨(nextValue eof buffer).1, phase, (nextValue eof buffer).2⟩ vs :=
            advances_nextValue_lines hvs hrest heof
          exact hline

/-! ## Whole lists -/

/-- A drain gives a front of the documents to come, and all of them at the end of the text. -/
theorem drain_of_pending (eof : Bool) (future : Bytes) {text : Bytes}
    (hvs : ∀ w ∈ vs, Readable w) (hpending : Pending d text vs) (hsplit : text = buffer ++ future)
    (heof : eof = true → future = []) :
    (d.drain eof buffer).fault = none ∧
      ∃ left, vs = (d.drain eof buffer).values ++ left ∧
        Pending (d.drain eof buffer).decoder ((d.drain eof buffer).rest ++ future) left ∧
        (eof = true → left = [] ∧ (d.drain eof buffer).rest = []) := by
  induction vs generalizing d text buffer with
  | nil =>
      cases advances_pull eof future hvs hpending hsplit heof with
      | waiting _ hresult hplace hend =>
          rw [drain_of_none hresult]
          exact ⟨rfl, [], rfl, hplace, hend⟩
  | cons v vs ih =>
      cases advances_pull eof future hvs hpending hsplit heof with
      | found _ _ hresult hplace =>
          obtain ⟨hfault, left, hvalues, hleft⟩ :=
            ih (fun w hw => hvs w (List.mem_cons_of_mem v hw)) hplace rfl
          rw [drain_of_some hresult]
          exact ⟨hfault, left, congrArg (v :: ·) hvalues, hleft⟩
      | waiting _ hresult hplace hend =>
          rw [drain_of_none hresult]
          exact ⟨rfl, v :: vs, rfl, hplace, hend⟩

/-- What a decoder gives for a text that arrives in chunks: it is drained after each chunk, and once
more at the end, unless there is a fault before. -/
def feed (d : ListDecoder) (buffer : Bytes) : (chunks : List Bytes) → Drained
  | [] => d.drain true buffer
  | chunk :: chunks =>
    let r := d.drain false (buffer ++ chunk)
    match r.fault with
    | some _ => r
    | none =>
      let r' := feed r.decoder r.rest chunks
      { r' with values := r.values ++ r'.values }

theorem feed_of_pending {text : Bytes} {chunks : List Bytes} (hvs : ∀ w ∈ vs, Readable w)
    (hpending : Pending d text vs) (hsplit : text = buffer ++ chunks.flatten) :
    (feed d buffer chunks).fault = none ∧ (feed d buffer chunks).values = vs ∧
      (feed d buffer chunks).rest = [] := by
  -- By induction on the chunks; between two of them `Pending` knows where the decoder is.
  induction chunks generalizing d buffer text vs with
  | nil =>
      obtain ⟨hfault, left, hvalues, -, hend⟩ :=
        drain_of_pending true [] hvs hpending hsplit fun _ => rfl
      obtain ⟨rfl, hrest⟩ := hend rfl
      rw [List.append_nil] at hvalues
      exact ⟨hfault, hvalues.symm, hrest⟩
  | cons chunk chunks ih =>
      rw [List.flatten_cons, ← List.append_assoc] at hsplit
      obtain ⟨hfault, left, hvalues, hplace, -⟩ :=
        drain_of_pending false chunks.flatten hvs hpending hsplit nofun
      have hleft : ∀ w ∈ left, Readable w := fun w hw =>
        hvs w (hvalues ▸ List.mem_append_right _ hw)
      obtain ⟨hfault', hvalues', hrest'⟩ := ih hleft hplace rfl
      rw [feed]
      simp only [hfault]
      exact ⟨hfault', by rw [hvalues', ← hvalues], hrest'⟩

end ListDecoder

theorem decodeList_text (format : ListFormat) {vs : List Json} (hvs : ∀ v ∈ vs, v.Readable) :
    decodeList format (ListDecoder.text format vs) = .ok vs := by
  obtain ⟨hfault, left, hvalues, -, hend⟩ := ListDecoder.drain_of_pending true [] hvs
    (ListDecoder.pending_text format vs) (List.append_nil _).symm fun _ => rfl
  obtain ⟨rfl, -⟩ := hend rfl
  rw [List.append_nil] at hvalues
  simp only [decodeList, hfault, ← hvalues]

namespace ListEncoder

def encodeAll (e : ListEncoder) : List Json → Except CodecError (Bytes × ListEncoder)
  | [] => .ok ([], e)
  | v :: vs => do
    let (bs, e) ← e.encode v
    let (more, e) ← encodeAll e vs
    return (bs ++ more, e)

/-- What an encoder writes when it is closed several times. -/
def closeTimes (e : ListEncoder) : Nat → Bytes
  | 0 => []
  | n + 1 => e.close.1 ++ closeTimes e.close.2 n

/-- The text of a list whose encoder is closed `closes` times. -/
def output (format : ListFormat) (vs : List Json) (closes : Nat) : Except CodecError Bytes := do
  let (bs, e) ← (start format).encodeAll vs
  return bs ++ e.closeTimes closes

theorem closeTimes_lines (started closed : Bool) (n : Nat) :
    (⟨.lines, started, closed⟩ : ListEncoder).closeTimes n = [] := by
  induction n with
  | zero => rfl
  | succ n ih => exact ih

theorem closeTimes_closed (started : Bool) (n : Nat) :
    (⟨.array, started, true⟩ : ListEncoder).closeTimes n = [] := by
  induction n with
  | zero => rfl
  | succ n ih => exact ih

theorem encode_first (v : Json) :
    (start .array).encode v = .ok (0x5B :: v.render, ⟨.array, true, false⟩) := rfl

theorem encode_next (v : Json) : (⟨.array, true, false⟩ : ListEncoder).encode v =
    .ok (0x2C :: v.render, ⟨.array, true, false⟩) := rfl

theorem close_first : (start .array).close = ([0x5B, 0x5D], ⟨.array, true, true⟩) := rfl

theorem close_next :
    (⟨.array, true, false⟩ : ListEncoder).close = ([0x5D], ⟨.array, true, true⟩) := rfl

theorem encodeAll_lines (started closed : Bool) (vs : List Json) :
    (⟨.lines, started, closed⟩ : ListEncoder).encodeAll vs =
      .ok (ListDecoder.lines vs, ⟨.lines, started, closed⟩) := by
  induction vs with
  | nil => rfl
  | cons v vs ih =>
      simp only [encodeAll, encode, bind, Except.bind, ih]
      rfl

/-- Behind the first document, an array goes on to its end as `behind` says. -/
theorem encodeAll_array (vs : List Json) :
    ∃ bs, (⟨.array, true, false⟩ : ListEncoder).encodeAll vs = .ok (bs, ⟨.array, true, false⟩) ∧
      bs ++ [0x5D] = ListDecoder.behind vs := by
  induction vs with
  | nil => exact ⟨[], rfl, rfl⟩
  | cons v vs ih =>
      obtain ⟨bs, hbs, hbehind⟩ := ih
      refine ⟨0x2C :: v.render ++ bs, ?_, ?_⟩
      · simp only [encodeAll, encode_next, bind, Except.bind, hbs]
        rfl
      · rw [List.append_assoc, hbehind, ListDecoder.behind, ListDecoder.renderItems_cons]
        rfl

theorem output_array (vs : List Json) (closes : Nat) :
    output .array vs (closes + 1) = .ok (Json.render (.arr vs)) := by
  cases vs with
  | nil =>
      simp only [output, encodeAll, bind, Except.bind, closeTimes, close_first, closeTimes_closed]
      rfl
  | cons v vs =>
      obtain ⟨bs, hbs, hbehind⟩ := encodeAll_array vs
      simp only [output, encodeAll, encode_first, bind, Except.bind, hbs]
      rw [Json.render, ListDecoder.renderItems_cons, ← hbehind]
      simp [pure, Except.pure, closeTimes, close_next, closeTimes_closed]

theorem output_eq (format : ListFormat) (vs : List Json) (closes : Nat) :
    output format vs (closes + 1) = .ok (ListDecoder.text format vs) := by
  cases format with
  | array => exact output_array vs closes
  | lines =>
      have hclose := closeTimes_lines false false (closes + 1)
      simp only [output, start, encodeAll_lines, bind, Except.bind, hclose, List.append_nil]
      rfl

end ListEncoder

/-- A list that has been written is read in full, however its text is cut. -/
theorem ListDecoder.feed_output (format : ListFormat) {vs : List Json}
    (hvs : ∀ v ∈ vs, v.Readable) (closes : Nat) :
    ∃ text, ListEncoder.output format vs (closes + 1) = .ok text ∧
      ∀ chunks : List Bytes, chunks.flatten = text →
        (feed (start format) [] chunks).fault = none ∧
          (feed (start format) [] chunks).values = vs ∧
          (feed (start format) [] chunks).rest = [] := by
  refine ⟨text format vs, ListEncoder.output_eq format vs closes, fun chunks hchunks => ?_⟩
  exact feed_of_pending hvs (pending_text format vs) (by rw [List.nil_append, hchunks])

/-- The pieces of `[12,"é"]` after its number has been cut, and its letter. -/
theorem ListDecoder.feed_output_cut_letter :
    (∀ v ∈ [Json.int 12, .str "é"], v.Readable) ∧
      (feed (start .array) []
        [[0x5B, 0x31], [], [0x32, 0x2C, 0x22, 0xC3], [0xA9, 0x22], [0x5D]]).values =
          [.int 12, .str "é"] := by
  have hvs : ∀ v ∈ [Json.int 12, .str "é"], v.Readable := by
    rw [List.forall_mem_cons, List.forall_mem_singleton]
    exact ⟨⟨⟨(by decide), (by decide)⟩, (by decide)⟩, trivial, (by decide)⟩
  obtain ⟨text, htext, hfeed⟩ := feed_output .array hvs 0
  refine ⟨hvs, (hfeed _ ?_).2.1⟩
  rw [ListEncoder.output_array] at htext
  exact Except.ok.inj htext

end WebResource
