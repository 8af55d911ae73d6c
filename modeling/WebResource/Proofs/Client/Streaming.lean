import WebResource.Client.Entities
import WebResource.Proofs.Client.Receiving

namespace WebResource

/-!
# Streams of entities

A stream with a list ahead of it gives the entities of the list one after the other, and what backs
it is released once it has ended or has been dropped.
-/

variable {S E I : Type} [Document E] {c : Context} {w : Timed S} {s : S} {es : List E}

theorem readable_documents (hes : ∀ e ∈ es, Document.Returns e) :
    ∀ v ∈ es.map Document.toJson, v.Readable := by
  intro v hv
  obtain ⟨e, he, rfl⟩ := List.mem_map.mp hv
  exact (hes e he).readable

/-! ## Lists ahead -/

/-- A list is ahead of a reader: its documents are in the buffer and in the frames to come, and what
is released at the end of the body leaves the state `s`. -/
structure ListReader.Ahead (r : ListReader S E) (c : Context) (w : Timed S) (s : S)
    (es : List E) : Prop where
  mapping : r.mapping = .identity
  watch : r.body.watch = some c
  release : r.body.release w.inner = s
  pending : ∃ frames : List Frame, r.body.chunks = frames.map .data ∧
    ListDecoder.Pending r.decoder (r.buffer ++ (frames.map Frame.data).flatten)
      (es.map Document.toJson)
  finished : r.eof = true → r.body.chunks = []

namespace Entities

/-- A list is ahead of a stream that needs no request to be sent first. -/
inductive Ahead (c : Context) (w : Timed S) (s : S) : Entities S E I → List E → Prop where
  | arriving {r : ListReader S E} {es : List E} (h : r.Ahead c w s es) : Ahead c w s (.arriving r) es
  | arrived (es : List E) (h : w.inner = s) : Ahead c w s (.arrived es) es
  | ended (h : w.inner = s) : Ahead c w s .ended []

/-- What a step of a stream gives with a list ahead of it: the first entity, or the end. -/
def Gives (c : Context) (w : Timed S) (s : S) (x : Act (Timed S) (Next S E I)) : List E → Prop
  | [] => Act.outcome x w = (.ok .ended, { w with inner := s })
  | e :: es => ∃ rest s', Act.outcome x w = (.ok (.item (.ok e) rest), { w with inner := s' }) ∧
      Ahead c { w with inner := s' } s rest es

theorem Gives.of_outcome {x y : Act (Timed S) (Next S E I)} (s' : S)
    (h : Act.outcome x w = Act.outcome y { w with inner := s' })
    (hy : Gives c { w with inner := s' } s y es) : Gives c w s x es := by
  cases es with
  | nil => exact h.trans hy
  | cons e es =>
      obtain ⟨rest, s'', houtcome, hahead⟩ := hy
      exact ⟨rest, s'', h.trans houtcome, hahead⟩

end Entities

/-! ## Lists that arrive -/

namespace ListReader

open Entities (Gives)

variable {r : ListReader S E} {b : Body S} {d : ListDecoder} {buffer future : Bytes}
  {frames : List Frame}

/-- A pull has found the first entity, or there is nothing in the buffer yet. -/
theorem found_cases (b : Body S) {p : Pull} {eof : Bool} (more : Act (Timed S) (Next S E I))
    (hes : ∀ e ∈ es, Document.Returns e) (hmapping : r.mapping = .identity)
    (hadvances : ListDecoder.Advances eof future d.format p (es.map Document.toJson)) :
    (∃ e rest, es = e :: rest ∧
      r.found b p eof more = .done (.item (.ok e) (.arriving { r with
        body := b, decoder := { r.decoder with phase := p.phase }, buffer := p.rest, eof })) ∧
      ListDecoder.Pending (d.moved p) (p.rest ++ future) (rest.map Document.toJson)) ∨
    (r.found b p eof more = more ∧ (eof = true → es = []) ∧
      ListDecoder.Pending (d.moved p) (p.rest ++ future) (es.map Document.toJson)) := by
  generalize hdocuments : es.map Document.toJson = documents at hadvances
  cases hadvances with
  | found v vs hresult hpending =>
      obtain ⟨e, rest, rfl, rfl, rfl⟩ := List.map_eq_cons_iff.mp hdocuments
      refine Or.inl ⟨e, rest, rfl, ?_, hpending⟩
      have hmapped : r.mapping.ofDocument r.context (Document.toJson e) = .ok e := by
        rw [hmapping]
        exact congrArg Mapped.ofExcept (hes e List.mem_cons_self).ofJson_toJson
      simp only [found, hresult, hmapped]
  | waiting _ hresult hpending hend =>
      -- At the end of the body a decoder waits for nothing, so no entity is left.
      refine Or.inr ⟨?_, fun heof => ?_, hdocuments ▸ hpending⟩
      · simp only [found, hresult]
      · exact List.map_eq_nil_iff.mp (hdocuments.trans (hend heof).1)

theorem gives_finish (hes : ∀ e ∈ es, Document.Returns e) (hmapping : r.mapping = .identity)
    (hformat : r.decoder.format = d.format) (hwatch : b.watch = some c)
    (hrelease : b.release w.inner = s) (hchunks : b.chunks = [])
    (hpending : ListDecoder.Pending d buffer (es.map Document.toJson)) :
    Gives c w s (r.finish b d buffer : Act (Timed S) (Next S E I)) es := by
  have hadvances := ListDecoder.advances_pull true [] (readable_documents hes) hpending
    (List.append_nil buffer).symm fun _ => rfl
  rcases found_cases b (b.drop.bind fun _ => .done .ended) hes hmapping hadvances with
    ⟨e, rest, hrest, hfound, hnext⟩ | ⟨hmore, hend, -⟩
  · rw [ListDecoder.moved, ← hformat] at hnext
    rw [hrest]
    exact ⟨_, w.inner, congrArg (Act.outcome · w) hfound,
      .arriving ⟨hmapping, hwatch, hrelease, ⟨[], hchunks, hnext⟩, fun _ => hchunks⟩⟩
  · rw [hend rfl]
    refine (congrArg (Act.outcome · w) hmore).trans ?_
    rw [← hrelease]
    rfl

omit [Document E] in
/-- Once every chunk has arrived, the list is finished unless its context has ended. -/
theorem advance_nil : (r.advance b d buffer [] : Act (Timed S) (Next S E I)) =
    r.found { b with chunks := [] } (d.decode buffer) false ((Body.interruption b.watch).bind fun
      | some e => fail { b with chunks := [] } (.context e)
      | none => r.finish { b with chunks := [] } (d.moved (d.decode buffer)) (d.decode buffer).rest) :=
  rfl

omit [Document E] in
/-- The next chunk is waited for, and goes behind what is left of the buffer. -/
theorem advance_cons (chunk : Chunk) (chunks : List Chunk) :
    (r.advance b d buffer (chunk :: chunks) : Act (Timed S) (Next S E I)) =
    r.found { b with chunks := chunk :: chunks } (d.decode buffer) false
      ((Body.await b.watch chunk).bind fun
        | .interrupted e => fail { b with chunks := chunk :: chunks } (.context e)
        | .failed e => fail { b with chunks := chunk :: chunks } (.ofTransport e)
        | .data bs => (Body.advance { b with chunks := chunk :: chunks } chunks).bind fun b =>
          r.advance b (d.moved (d.decode buffer)) ((d.decode buffer).rest ++ bs) chunks) :=
  rfl

theorem gives_advance (hes : ∀ e ∈ es, Document.Returns e) (hmapping : r.mapping = .identity)
    (hformat : r.decoder.format = d.format) (hwatch : b.watch = some c)
    (hlive : c.err w.time = none) (hrelease : b.release w.inner = s)
    (hpending : ListDecoder.Pending d (buffer ++ (frames.map Frame.data).flatten)
      (es.map Document.toJson)) :
    Gives c w s (r.advance b d buffer (frames.map .data) : Act (Timed S) (Next S E I)) es := by
  -- Each frame that is waited for goes behind the buffer, so the text that is still to come stays the
  -- same; only with the last frame is the backing of the body released.
  induction frames generalizing b d buffer w with
  | nil =>
      have hwatched : Body.Live b.watch w := hwatch ▸ Body.live_some hlive
      have hadvances := ListDecoder.advances_pull false [] (readable_documents hes) hpending
        rfl fun h => absurd h Bool.false_ne_true
      rw [List.map_nil, advance_nil]
      rcases found_cases { b with chunks := [] } _ hes hmapping hadvances with
        ⟨e, rest, hrest, hfound, hnext⟩ | ⟨hmore, -, hnext⟩
      · rw [ListDecoder.moved, ← hformat] at hnext
        rw [hrest]
        exact ⟨_, w.inner, congrArg (Act.outcome · w) hfound,
          .arriving ⟨hmapping, hwatch, hrelease, ⟨[], rfl, hnext⟩, fun h => absurd h Bool.false_ne_true⟩⟩
      · have hfinish : Gives c w s (r.finish { b with chunks := [] } (d.moved (d.decode buffer))
            (d.decode buffer).rest : Act (Timed S) (Next S E I)) es := by
          rw [List.append_nil] at hnext
          exact gives_finish hes hmapping hformat hwatch hrelease rfl hnext
        refine Gives.of_outcome w.inner ?_ hfinish
        refine (congrArg (Act.outcome · w) hmore).trans ?_
        rw [Act.outcome_bind, Body.outcome_interruption hwatched, Act.continueWith_ok]
  | cons frame frames ih =>
      have hwatched : Body.Live b.watch w := hwatch ▸ Body.live_some hlive
      rw [List.map_cons, List.flatten_cons] at hpending
      have hadvances := ListDecoder.advances_pull false _ (readable_documents hes) hpending rfl
        fun h => absurd h Bool.false_ne_true
      rw [List.map_cons, advance_cons]
      let b' : Body S := { b with chunks := .data frame :: frames.map .data }
      rcases found_cases b' _ hes hmapping hadvances with
        ⟨e, rest, hrest, hfound, hnext⟩ | ⟨hmore, -, hnext⟩
      · rw [ListDecoder.moved, ← hformat] at hnext
        rw [hrest]
        refine ⟨_, w.inner, congrArg (Act.outcome · w) hfound,
          .arriving ⟨hmapping, hwatch, hrelease, ⟨frame :: frames, rfl, ?_⟩,
            fun h => absurd h Bool.false_ne_true⟩⟩
        rw [List.map_cons, List.flatten_cons]
        exact hnext
      · obtain ⟨b'', s', hadvance, hwatch', hrelease'⟩ := b'.outcome_advance (frames.map .data) w
        have hlater : Gives c { w with inner := s' } s (r.advance b'' (d.moved (d.decode buffer))
            ((d.decode buffer).rest ++ frame.data) (frames.map .data) :
              Act (Timed S) (Next S E I)) es := by
          refine ih hformat (hwatch'.trans hwatch) hlive (hrelease'.trans hrelease) ?_
          rw [List.append_assoc]
          exact hnext
        refine Gives.of_outcome s' ?_ hlater
        refine (congrArg (Act.outcome · w) hmore).trans ?_
        rw [Act.outcome_bind, Body.outcome_await hwatched, Act.continueWith_ok]
        rw [Act.outcome_bind, hadvance, Act.continueWith_ok]

theorem gives_next {r : ListReader S E} (hes : ∀ e ∈ es, Document.Returns e)
    (hlive : c.err w.time = none) (h : r.Ahead c w s es) :
    Gives c w s (r.next : Act (Timed S) (Next S E I)) es := by
  obtain ⟨frames, hchunks, hpending⟩ := h.pending
  rw [next]
  cases heof : r.eof with
  | true =>
      have hnone := h.finished heof
      obtain rfl : frames = [] := List.map_eq_nil_iff.mp (hchunks.symm.trans hnone)
      rw [List.map_nil, List.flatten_nil, List.append_nil] at hpending
      exact gives_finish hes h.mapping rfl h.watch h.release hnone hpending
  | false =>
      rw [hchunks]
      exact gives_advance hes h.mapping rfl h.watch hlive h.release hpending

end ListReader

namespace Entities

variable {k : Client S E I} {xs : Entities S E I}

theorem Ahead.next_eq (h : Ahead c w s xs es) : xs.next k = xs.nextArrived := by
  cases h <;> rfl

theorem gives_next (hes : ∀ e ∈ es, Document.Returns e) (hlive : c.err w.time = none)
    (h : Ahead c w s xs es) : Gives c w s (xs.next k) es := by
  cases h with
  | arriving h => exact ListReader.gives_next hes hlive h
  | arrived es h =>
      cases es with
      | nil => exact h ▸ rfl
      | cons e es => exact ⟨.arrived es, w.inner, rfl, .arrived es h⟩
  | ended h => exact h ▸ rfl

theorem outcome_drop (h : Ahead c w s xs es) :
    Act.outcome xs.drop w = (.ok (), { w with inner := s }) := by
  cases h with
  | arriving h => exact h.release ▸ rfl
  | arrived es h => exact h ▸ rfl
  | ended h => exact h ▸ rfl

/-- A stream gives the entities ahead of it in their order, and then no more. -/
theorem outcome_take (hes : ∀ e ∈ es, Document.Returns e) (hlive : c.err w.time = none)
    (h : Ahead c w s xs es) (n : Nat) :
    ∃ rest s', Act.outcome (take k n xs) w =
        (.ok ((es.take n).map .ok, rest), { w with inner := s' }) ∧
      Ahead c { w with inner := s' } s rest (es.drop n) := by
  induction n generalizing xs w es with
  | zero => exact ⟨xs, w.inner, rfl, h⟩
  | succ n ih =>
      have hgives := gives_next (k := k) hes hlive h
      cases es with
      | nil =>
          refine ⟨.ended, s, ?_, .ended rfl⟩
          change Act.outcome ((xs.next k).bind _) w = _
          rw [Act.outcome_bind, hgives, Act.continueWith_ok]
          rfl
      | cons e es =>
          obtain ⟨rest, s', hnext, hahead⟩ := hgives
          obtain ⟨last, s'', htake, hlast⟩ :=
            ih (w := { w with inner := s' }) (fun e' he' => hes e' (List.mem_cons_of_mem e he')) hlive
              hahead
          refine ⟨last, s'', ?_, hlast⟩
          change Act.outcome ((xs.next k).bind _) w = _
          rw [Act.outcome_bind, hnext, Act.continueWith_ok]
          change Act.outcome ((take k n rest).bind _) _ = _
          rw [Act.outcome_bind, htake, Act.continueWith_ok]
          rfl

end Entities

end WebResource
