import WebResource.Proofs.Codec.Buffering
import WebResource.Proofs.Codec.Lists

namespace WebResource

/-!
# Lists cut into pieces

Where the text of a list is cut matters in two ways only. Behind a word a decoder does not wait for
the byte that follows, which may show that the word has not ended: so a cut there can hide a fault.
And a number that is too large as far as it has come is refused at the cut, even where an exponent is
still to come that brings it back into the range.
-/

namespace ListFormat

open Json (isDelimiter)

variable {format : ListFormat} {p q : ListPlace} {b : UInt8} {as bs : Bytes} {vs : List Json}

/-! ## Words at a cut -/

/-- A text goes on right behind a word with a byte that may not stand there. -/
def Sticks (q : ListPlace) (bs : Bytes) : Prop :=
  q = .afterWord ∧ ∃ b more, bs = b :: more ∧ isDelimiter b = false

theorem scan_of_sticks (h : Sticks q bs) : format.scan q bs = none := by
  obtain ⟨rfl, b, more, rfl, hb⟩ := h
  rw [scan_afterWord, hb]
  rfl

theorem not_sticks_of_settled (h : format.settled q = q) : ¬Sticks q bs := by
  rintro ⟨rfl, -⟩
  cases h

theorem Sticks.append (h : Sticks q as) (bs : Bytes) : Sticks q (as ++ bs) := by
  obtain ⟨hq, b, more, rfl, hb⟩ := h
  exact ⟨hq, b, more ++ bs, rfl, hb⟩

theorem scan_settled_cons (h : ¬Sticks q (b :: bs)) :
    format.scan (format.settled q) (b :: bs) = format.scan q (b :: bs) := by
  cases q with
  | between phase => rfl
  | inside s stack => rfl
  | afterWord =>
      cases hb : isDelimiter b with
      | false => exact absurd ⟨rfl, b, bs, rfl, hb⟩ h
      | true =>
          rw [scan_afterWord, hb]
          rfl

/-- In an array nothing can be hidden behind a word: a byte that may not stand there is no
separator. -/
theorem scan_settled_of_sticks (h : Sticks q bs) : scan .array (settled .array q) bs = none := by
  obtain ⟨rfl, b, more, rfl, hb⟩ := h
  have hclose : b ≠ 0x5D := by
    rintro rfl
    cases hb
  have hcomma : b ≠ 0x2C := by
    rintro rfl
    cases hb
  have hblank : Json.isBlankByte b = false := by
    rw [isDelimiter, Bool.or_eq_false_iff] at hb
    exact hb.1
  simp [settled, behind, scan_between, stepBetween, hblank, hclose, hcomma]

theorem complete_of_sticks (format : ListFormat) (h : Sticks q bs) : format.complete q bs = none := by
  rw [complete, scan_of_sticks h]
  rfl

theorem complete_settled (h : ¬Sticks q bs) :
    format.complete (format.settled q) bs = format.complete q bs := by
  cases bs with
  | nil => rw [complete_nil, complete_nil, finish_settled]
  | cons b bs => rw [complete, complete, scan_settled_cons h]

/-! ## Cuts -/

/-- A cut right behind a word, to which the text behind the cut would add. -/
def Glued (format : ListFormat) (p : ListPlace) (front back : Bytes) : Prop :=
  ∃ x ∈ format.scan p front, Sticks x.2 back

/-- A cut in a number that is too large as far as it stands in front of the cut. -/
def Exceeds (format : ListFormat) (p : ListPlace) (front : Bytes) : Prop :=
  ∃ x ∈ format.scan p front, x.2.OutOfRange

theorem glued_append (h : format.scan p as = some (vs, q)) {front back : Bytes} :
    format.Glued p (as ++ front) back ↔ format.Glued q front back := by
  rw [Glued, Glued, scan_append_of h]
  cases format.scan q front <;> simp [give]

theorem exceeds_append (h : format.scan p as = some (vs, q)) {front : Bytes} :
    format.Exceeds p (as ++ front) ↔ format.Exceeds q front := by
  rw [Exceeds, Exceeds, scan_append_of h]
  cases format.scan q front <;> simp [give]

theorem glued_nil {back : Bytes} : format.Glued q [] back ↔ Sticks q back := by
  simp [Glued, scan]

theorem exceeds_nil : format.Exceeds q [] ↔ q.OutOfRange := by
  simp [Exceeds, scan]

theorem glued_settled {front back : Bytes} (h : ¬Sticks q (front ++ back)) :
    format.Glued (format.settled q) front back ↔ format.Glued q front back := by
  cases front with
  | nil => exact iff_of_false (mt glued_nil.mp (not_sticks_of_settled (settled_settled format q))) (mt glued_nil.mp h)
  | cons b front =>
      have hfront : ¬Sticks q (b :: front) := fun hsticks => h (hsticks.append back)
      rw [Glued, Glued, scan_settled_cons hfront]

theorem exceeds_settled {front : Bytes} (h : ¬Sticks q front) :
    format.Exceeds (format.settled q) front ↔ format.Exceeds q front := by
  cases front with
  | nil => rw [exceeds_nil, exceeds_nil, outOfRange_settled]
  | cons b front => rw [Exceeds, Exceeds, scan_settled_cons h]

end ListFormat

namespace ListDecoder

open ListFormat

variable {d : ListDecoder} {format : ListFormat} {p q : ListPlace} {buffer chunk : Bytes}
  {chunks : List Bytes} {f : ListFault} {vs : List Json}

/-! ## A list in chunks -/

theorem Stands.scan (h : Stands format d buffer p) (bs : Bytes) :
    format.scan d.place (buffer ++ bs) = format.scan p bs := by
  rw [scan_append_of h.hreads, give_nil]

theorem Stands.rests (h : Stands format d buffer p) (chunk : Bytes) :
    Rests format (format.scan p chunk) (d.drain false (buffer ++ chunk)) := by
  have hrests := rests_drain d (buffer ++ chunk)
  rwa [h.hformat, h.scan] at hrests

theorem documents?_feed_nil (h : Stands format d buffer p) :
    (feed d buffer []).documents? = format.complete p [] := by
  have hcomplete := complete_append h.hreads []
  rw [List.append_nil] at hcomplete
  rw [feed, documents?_drain_true, h.hformat, hcomplete]
  cases format.complete p [] <;> rfl

theorem feed_cons_of_fault (hfault : (d.drain false (buffer ++ chunk)).fault = some f) :
    feed d buffer (chunk :: chunks) = d.drain false (buffer ++ chunk) := by
  rw [feed]
  simp only [hfault]

/-- The documents of a first chunk stand in front of those of the chunks behind it. -/
theorem feed_cons_of_rested (chunks : List Bytes)
    (hfault : (d.drain false (buffer ++ chunk)).fault = none) :
    (feed d buffer (chunk :: chunks)).fault = (feed (d.drain false (buffer ++ chunk)).decoder
        (d.drain false (buffer ++ chunk)).rest chunks).fault ∧
      (feed d buffer (chunk :: chunks)).documents? =
        (feed (d.drain false (buffer ++ chunk)).decoder
          (d.drain false (buffer ++ chunk)).rest chunks).documents?.map
            ((d.drain false (buffer ++ chunk)).values ++ ·) := by
  rw [feed]
  simp only [hfault, true_and]
  exact documents?_append _ _

theorem exceeds_cons {front : List Bytes} (hscan : format.scan p chunk = some (vs, q))
    (hsticks : ¬Sticks q chunks.flatten) (hfront : front <+: chunks) :
    format.Exceeds p (chunk :: front).flatten ↔
      format.Exceeds (format.settled q) front.flatten := by
  obtain ⟨back, rfl⟩ := hfront
  have hmore : ¬Sticks q front.flatten := fun h => by
    rw [List.flatten_append] at hsticks
    exact hsticks (h.append back.flatten)
  rw [List.flatten_cons, exceeds_append hscan, exceeds_settled hmore]

/-- No number is too large at a cut, and a list comes as it is; or the first number that is too large
at a cut is refused. -/
theorem feed_of_complete (hstands : Stands format d buffer p)
    (hvs : format.complete p chunks.flatten = some vs) :
    ((feed d buffer chunks).documents? = some vs ∧
        ∀ front, front <+: chunks → ¬format.Exceeds p front.flatten) ∨
      ((∃ e, (feed d buffer chunks).fault = some (.json e) ∧ e.fault = .numberOutOfRange) ∧
        ∃ front, front <+: chunks ∧ format.Exceeds p front.flatten) := by
  -- By induction on the chunks; between two of them the decoder has read its buffer to a place.
  induction chunks generalizing d buffer p vs with
  | nil =>
      refine Or.inl ⟨(documents?_feed_nil hstands).trans hvs, fun front hfront => ?_⟩
      rw [List.prefix_nil.mp hfront, List.flatten_nil, exceeds_nil]
      exact hstands.hrange
  | cons chunk chunks ih =>
      cases hstands.rests chunk with
      | refused f hfault hr =>
          rw [List.flatten_cons, complete_of_scan_none hr] at hvs
          cases hvs
      | outOfRange e ws q hfault hr he hrange =>
          refine Or.inr ⟨⟨e, ?_, he⟩, [chunk], ⟨chunks, rfl⟩, ?_⟩
          · rw [feed_cons_of_fault hfault, hfault]
          · rw [List.flatten_singleton]
            exact ⟨(ws, q), hr, hrange⟩
      | rested q hfault hr hnext =>
          rw [List.flatten_cons, complete_append hr] at hvs
          obtain ⟨ws, hws, rfl⟩ := Option.map_eq_some_iff.mp hvs
          have hsticks : ¬Sticks q chunks.flatten := fun h => by
            rw [complete_of_sticks format h] at hws
            cases hws
          rw [← complete_settled hsticks] at hws
          obtain ⟨hsame, hdocuments⟩ := feed_cons_of_rested chunks hfault
          rw [hsame, hdocuments]
          rcases ih hnext hws with ⟨hfeed, hfronts⟩ | ⟨hfeed, front, hfront, hexceeds⟩
          · refine Or.inl ⟨by rw [hfeed]; rfl, fun front hfront => ?_⟩
            rcases List.prefix_cons_iff.mp hfront with rfl | ⟨more, rfl, hmore⟩
            · exact mt exceeds_nil.mp hstands.hrange
            · exact mt (exceeds_cons hr hsticks hmore).mp (hfronts more hmore)
          · refine Or.inr ⟨hfeed, chunk :: front, (List.prefix_cons_inj chunk).mpr hfront, ?_⟩
            exact (exceeds_cons hr hsticks hfront).mpr hexceeds

/-- A list that is read in chunks is read as a whole, unless a cut behind a word has hidden what
stands there, which happens in lines only. -/
theorem complete_of_feed (hstands : Stands format d buffer p)
    (hvs : (feed d buffer chunks).documents? = some vs) :
    (format.complete p chunks.flatten = some vs ∧
        ∀ front back, front ++ back = chunks → ¬format.Glued p front.flatten back.flatten) ∨
      (format = .lines ∧ format.complete p chunks.flatten = none ∧
        ∃ front back, front ++ back = chunks ∧ format.Glued p front.flatten back.flatten) := by
  have hfirst (back : Bytes) : ¬format.Glued p [] back :=
    mt glued_nil.mp (not_sticks_of_settled hstands.hsettled)
  induction chunks generalizing d buffer p vs with
  | nil =>
      rw [documents?_feed_nil hstands] at hvs
      refine Or.inl ⟨hvs, fun front back hcut => ?_⟩
      rw [(List.append_eq_nil_iff.mp hcut).1]
      exact hfirst back.flatten
  | cons chunk chunks ih =>
      cases hstands.rests chunk with
      | refused f hfault hr =>
          rw [feed_cons_of_fault hfault, Drained.documents?, hfault] at hvs
          cases hvs
      | outOfRange e ws q hfault hr he hrange =>
          rw [feed_cons_of_fault hfault, Drained.documents?, hfault] at hvs
          cases hvs
      | rested q hfault hr hnext =>
          rw [(feed_cons_of_rested chunks hfault).2] at hvs
          obtain ⟨ws, hws, rfl⟩ := Option.map_eq_some_iff.mp hvs
          have hwhole := ih hnext hws fun back =>
            mt glued_nil.mp (not_sticks_of_settled hnext.hsettled)
          rw [List.flatten_cons, complete_append hr]
          by_cases hsticks : Sticks q chunks.flatten
          · -- The first cut hides something; an array shows it all the same.
            have hnone := complete_of_sticks format hsticks
            have hcut : format.Glued p chunk chunks.flatten := ⟨_, hr, hsticks⟩
            refine Or.inr ⟨?_, by rw [hnone]; rfl, [chunk], chunks, rfl, by simpa using hcut⟩
            rcases hwhole with ⟨hcomplete, -⟩ | ⟨hlines, -⟩
            · cases format with
              | lines => rfl
              | array =>
                  rw [complete, scan_settled_of_sticks hsticks] at hcomplete
                  cases hcomplete
            · exact hlines
          · have hcut {front back : List Bytes} (hchunks : front ++ back = chunks) :
                format.Glued p (chunk :: front).flatten back.flatten ↔
                  format.Glued (format.settled q) front.flatten back.flatten := by
              rw [← hchunks, List.flatten_append] at hsticks
              rw [List.flatten_cons, glued_append hr, glued_settled hsticks]
            rw [complete_settled hsticks] at hwhole
            rcases hwhole with ⟨hcomplete, hcuts⟩ | ⟨hlines, hcomplete, front, back, hchunks, hglued⟩
            · refine Or.inl ⟨by rw [hcomplete]; rfl, fun front back hchunks => ?_⟩
              rcases List.append_eq_cons_iff.mp hchunks with ⟨rfl, -⟩ | ⟨more, rfl, hmore⟩
              · exact hfirst back.flatten
              · exact mt (hcut hmore.symm).mp (hcuts more back hmore.symm)
            · refine Or.inr ⟨hlines, by rw [hcomplete]; rfl, chunk :: front, back, ?_, ?_⟩
              · rw [List.cons_append, hchunks]
              · exact (hcut hchunks).mpr hglued

/-! ## Whole texts -/

theorem documents?_drain_start (format : ListFormat) (bs : Bytes) :
    ((start format).drain true bs).documents? = format.complete (.between .start) bs := by
  rw [documents?_drain_true]
  cases format <;> rfl

theorem decodeList_of_complete {bs : Bytes} (h : format.complete (.between .start) bs = some vs) :
    decodeList format bs = .ok vs := by
  rw [← documents?_drain_start, Drained.documents?] at h
  rw [decodeList]
  cases hfault : ((start format).drain true bs).fault with
  | none =>
      rw [hfault] at h
      exact congrArg Except.ok (Option.some.inj h)
  | some f =>
      rw [hfault] at h
      cases h

theorem decodeList_of_complete_none {bs : Bytes} (h : format.complete (.between .start) bs = none) :
    ∃ e, decodeList format bs = .error e := by
  rw [← documents?_drain_start, Drained.documents?] at h
  rw [decodeList]
  cases hfault : ((start format).drain true bs).fault with
  | none =>
      rw [hfault] at h
      cases h
  | some f => exact ⟨_, rfl⟩

theorem complete_of_decodeList {bs : Bytes} (h : decodeList format bs = .ok vs) :
    format.complete (.between .start) bs = some vs := by
  cases hcomplete : format.complete (.between .start) bs with
  | none =>
      obtain ⟨e, he⟩ := decodeList_of_complete_none hcomplete
      cases he.symm.trans h
  | some ws =>
      obtain rfl := Except.ok.inj ((decodeList_of_complete hcomplete).symm.trans h)
      rfl

/-- A list that is read as a whole is read in chunks if no chunk ends in a number that is too large
as far as it has come. Such a number is refused. -/
theorem feed_of_decodeList (h : decodeList format chunks.flatten = .ok vs) :
    ((feed (start format) [] chunks).documents? = some vs ↔
        ∀ front, front <+: chunks → ¬format.Exceeds (.between .start) front.flatten) ∧
      ((feed (start format) [] chunks).documents? = some vs ∨
        ∃ e, (feed (start format) [] chunks).fault = some (.json e) ∧
          e.fault = .numberOutOfRange) := by
  rcases feed_of_complete (stands_start format) (complete_of_decodeList h) with
    ⟨hvs, hfronts⟩ | ⟨⟨e, hfault, he⟩, front, hfront, hexceeds⟩
  · exact ⟨iff_of_true hvs hfronts, Or.inl hvs⟩
  · refine ⟨iff_of_false (fun hvs => ?_) fun hfronts => hfronts front hfront hexceeds,
      Or.inr ⟨e, hfault, he⟩⟩
    rw [Drained.documents?, hfault] at hvs
    cases hvs

/-- An array of one number that is in the range only by its exponent, in front of which it is cut. -/
def cutNumber : List Bytes :=
  [0x5B :: 0x31 :: List.replicate 309 0x30, [0x65, 0x2D, 0x31, 0x30, 0x5D]]

theorem feed_of_decodeList_cutNumber : ∃ vs, decodeList .array cutNumber.flatten = .ok vs ∧
    ∃ e, (feed (start .array) [] cutNumber).fault = some (.json e) ∧ e.fault = .numberOutOfRange := by
  have hwhole : (decodeList .array cutNumber.flatten).isOk = true := by decide +kernel
  have hchunks : (feed (start .array) [] cutNumber).documents?.isNone = true := by decide +kernel
  cases h : decodeList .array cutNumber.flatten with
  | error e =>
      rw [h] at hwhole
      cases hwhole
  | ok vs =>
      refine ⟨vs, rfl, ?_⟩
      rcases (feed_of_decodeList h).2 with hvs | hfault
      · rw [hvs] at hchunks
        cases hchunks
      · exact hfault

/-- A list that is read in chunks is read as a whole if no chunk ends with a word to which the text
behind the chunk adds. Such a text is no list; in an array there is none. -/
theorem decodeList_of_feed (h : (feed (start format) [] chunks).documents? = some vs) :
    (decodeList format chunks.flatten = .ok vs ↔ ∀ front back, front ++ back = chunks →
        ¬format.Glued (.between .start) front.flatten back.flatten) ∧
      (decodeList format chunks.flatten = .ok vs ∨
        format = .lines ∧ ∃ e, decodeList format chunks.flatten = .error e) := by
  rcases complete_of_feed (stands_start format) h with
    ⟨hcomplete, hcuts⟩ | ⟨hlines, hcomplete, front, back, hchunks, hglued⟩
  · have hvs := decodeList_of_complete hcomplete
    exact ⟨iff_of_true hvs hcuts, Or.inl hvs⟩
  · obtain ⟨e, he⟩ := decodeList_of_complete_none hcomplete
    refine ⟨iff_of_false (fun hvs => ?_) fun hcuts => hcuts front back hchunks hglued,
      Or.inr ⟨hlines, e, he⟩⟩
    cases he.symm.trans hvs

/-- The text `truefalse`, cut between its words. -/
def cutWords : List Bytes := [[0x74, 0x72, 0x75, 0x65], [0x66, 0x61, 0x6C, 0x73, 0x65]]

theorem decodeList_of_feed_cutWords :
    (feed (start .lines) [] cutWords).documents? = some [.bool true, .bool false] ∧
      ∃ e, decodeList .lines cutWords.flatten = .error e := by
  have hchunks : (feed (start .lines) [] cutWords).documents? = some [.bool true, .bool false] := rfl
  have hwhole : (decodeList .lines cutWords.flatten).isOk = false := by decide +kernel
  refine ⟨hchunks, ?_⟩
  rcases (decodeList_of_feed hchunks).2 with hvs | ⟨-, he⟩
  · rw [hvs] at hwhole
    cases hwhole
  · exact he

end ListDecoder

end WebResource
