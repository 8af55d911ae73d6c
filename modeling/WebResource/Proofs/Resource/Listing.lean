import WebResource.Proofs.Codec.Lists
import WebResource.Proofs.Message.Response
import WebResource.Proofs.Resource.Memory

namespace WebResource.Resource

/-!
# Lists of all entities

The frames of a list are the text of the list in pieces, and its stream leaves nothing behind once
it is released.
-/

variable {E I : Type} [Document E] {c : Context} {format : ListFormat} {es : List E}

namespace Listing

theorem encodeEntity_eq {encoder next : ListEncoder} {e : E} {bs : Bytes}
    (h : encoder.encode (Document.toJson e) = .ok (bs, next)) :
    encodeEntity .identity c encoder e = .ok (bs, next) := by
  have hmapped : Mapping.identity.toDocument c e = .ok (Document.toJson e) := rfl
  simp only [encodeEntity, hmapped, Mapped.bind, h]

/-- The frames are the same in every context, and they make up what the encoder writes. -/
theorem frames_eq {encoder last : ListEncoder} {bs : Bytes}
    (h : encoder.encodeAll (es.map Document.toJson) = .ok (bs, last)) :
    ∃ fs, (∀ c, frames .identity c encoder (es.map .entity) = fs) ∧
      (fs.map Frame.data).flatten = bs ++ last.close.1 := by
  induction es generalizing encoder bs with
  | nil =>
      cases h
      refine ⟨closing last [], fun _ => rfl, ?_⟩
      simp [closing]
  | cons e es ih =>
      rw [List.map_cons, ListEncoder.encodeAll] at h
      cases hfirst : encoder.encode (Document.toJson e) with
      | error x =>
          rw [hfirst] at h
          cases h
      | ok p =>
          obtain ⟨first, next⟩ := p
          simp only [hfirst, bind, Except.bind] at h
          cases hrest : next.encodeAll (es.map Document.toJson) with
          | error x =>
              rw [hrest] at h
              cases h
          | ok q =>
              obtain ⟨rest, last'⟩ := q
              simp only [hrest] at h
              cases h
              obtain ⟨fs, hfs, hflat⟩ := ih hrest
              refine ⟨⟨first, []⟩ :: fs, fun c => ?_, ?_⟩
              · rw [List.map_cons, frames, encodeEntity_eq hfirst]
                exact congrArg _ (hfs c)
              · rw [List.map_cons, List.flatten_cons, hflat, List.append_assoc]

/-- A list is closed at once or its frames follow, and either way they make up its text. -/
theorem start_eq (format : ListFormat) (es : List E) :
    let text := ListDecoder.text format (es.map Document.toJson)
    (∀ c, start .identity c format (es.map .entity) = .empty text) ∨
      ∃ fs, (∀ c, start .identity c format (es.map .entity) = .opened fs) ∧
        (fs.map Frame.data).flatten = text := by
  intro text
  have houtput := ListEncoder.output_eq format (es.map Document.toJson) 0
  simp only [ListEncoder.output, bind, Except.bind] at houtput
  cases hall : (ListEncoder.start format).encodeAll (es.map Document.toJson) with
  | error x =>
      rw [hall] at houtput
      cases houtput
  | ok p =>
      obtain ⟨bs, last⟩ := p
      have htext : bs ++ last.close.1 = text := by
        rw [hall] at houtput
        simpa [ListEncoder.closeTimes, pure, Except.pure] using houtput
      cases es with
      | nil =>
          cases hall
          exact Or.inl fun _ => congrArg Opening.empty htext
      | cons e es =>
          obtain ⟨fs, hfs, hflat⟩ := frames_eq hall
          refine Or.inr ⟨fs, fun c => ?_, hflat.trans htext⟩
          rw [← hfs c]
          rw [List.map_cons, ListEncoder.encodeAll] at hall
          cases hfirst : (ListEncoder.start format).encode (Document.toJson e) with
          | error x =>
              rw [hfirst] at hall
              cases hall
          | ok q =>
              obtain ⟨first, next⟩ := q
              simp only [List.map_cons, start, frames, encodeEntity_eq hfirst]

end Listing

section Index

variable [DecidableEq I] [Identifier I] {m : Memory E}

/-- A list of all entities: once its stream is released, what is stored is as it was before. -/
theorem outcome_index (k : Identity E I) (ids : IdFormat I) (limit : Nat) (mediaType : String)
    {codec : Codec} (hformat : codec.streaming = some format) (hinjected : m.injected = none) :
    ∃ fs release m', (∀ routers c, Serving.outcome ((stored k ids limit).answer routers)
        ((stored k ids limit).index c ⟨mediaType, codec⟩) m =
          (.ok (.ok ⟨200, [("content-type", Utf8.encode mediaType)], fs, release⟩), m')) ∧
      release m' = m ∧
      (fs.map Frame.data).flatten = ListDecoder.text format (m.entities.map Document.toJson) := by
  have hoffered : (stored k ids limit).operations.index.isNone = false := rfl
  have hmapping : (stored k ids limit).mappings.get mediaType = .identity := rfl
  have hsnapshot : m.snapshot = m.entities.map .entity := by rw [Memory.snapshot, hinjected]
  have hclosed : m.openStream.2.closeStream = m := by
    obtain ⟨entities, sequence, openStreams, injected⟩ := m
    cases hinjected
    rfl
  rcases Listing.start_eq format m.entities with hstart | ⟨fs, hstart, htext⟩
  · refine ⟨_, id, m, fun routers c => ?_, rfl, Response.flatten_whole _⟩
    unfold index
    simp only [hoffered, hformat, Bool.false_eq_true, if_false]
    rw [Serving.outcome_ask_bind _ (outcome_answer_index rfl c), hmapping, hsnapshot, hstart c]
    simp only
    have hreleased : Act.outcome ((stored k ids limit).answer routers
        (.release Memory.closeStream)) m.openStream.2 = (.ok (), m) := congrArg _ hclosed
    rw [Serving.outcome_ask_bind _ hreleased]
    rfl
  · refine ⟨fs, Memory.closeStream, m.openStream.2, fun routers c => ?_, hclosed, htext⟩
    unfold index
    simp only [hoffered, hformat, Bool.false_eq_true, if_false]
    rw [Serving.outcome_ask_bind _ (outcome_answer_index rfl c), hmapping, hsnapshot, hstart c]
    rfl

end Index

end WebResource.Resource
