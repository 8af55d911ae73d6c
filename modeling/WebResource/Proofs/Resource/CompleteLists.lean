import WebResource.Proofs.Problem
import WebResource.Proofs.Resource.Listing
import WebResource.Resource.Handler

namespace WebResource.Resource

/-!
# Lists are complete

Whatever happens while the entities of a list are fetched and mapped, its caller gets a whole list of
the entities before that, or an error and nothing of a list. No item is fetched behind one that
failed.
-/

namespace Listing

variable {E : Type} {m : Mapping E} {c : Context} {format : ListFormat}

/-! ## Frames -/

/-- The documents of the items before the first one that cannot be fetched or mapped. -/
def leading (m : Mapping E) (c : Context) : List (Fetched E) → List Json
  | .entity e :: items =>
    match m.toDocument c e with
    | .ok v => v :: leading m c items
    | _ => []
  | _ => []

/-- A document as it is written behind others. -/
def laterPiece : ListFormat → Json → Bytes
  | .array, v => 0x2C :: v.render
  | .lines, v => v.render ++ [0x0A]

/-- The documents of a list as they are written one by one. -/
def pieces : ListFormat → List Json → List Bytes
  | _, [] => []
  | .array, v :: vs => (0x5B :: v.render) :: vs.map (laterPiece .array)
  | .lines, vs => vs.map (laterPiece .lines)

/-- What is written behind the last document. -/
def lastPiece : ListFormat → Bytes
  | .array => [0x5D]
  | .lines => []

theorem behind_eq (vs : List Json) :
    ListDecoder.behind vs = (vs.map (laterPiece .array)).flatten ++ [0x5D] := by
  induction vs with
  | nil => rfl
  | cons v vs ih =>
      rw [ListDecoder.behind, ListDecoder.renderItems_cons, ih]
      simp [laterPiece]

/-- The pieces of a list make up its text. -/
theorem flatten_pieces {vs : List Json} (h : vs ≠ []) :
    (pieces format vs ++ [lastPiece format]).flatten = ListDecoder.text format vs := by
  cases vs with
  | nil => exact absurd rfl h
  | cons v vs =>
      cases format with
      | array =>
          rw [ListDecoder.text, Json.render, ListDecoder.renderItems_cons, behind_eq]
          simp [pieces, lastPiece]
      | lines =>
          simp only [pieces, lastPiece, List.flatten_append, ListDecoder.text, ListDecoder.lines,
            List.flatMap_def]
          exact List.append_nil _

theorem length_pieces (format : ListFormat) (vs : List Json) : (pieces format vs).length = vs.length := by
  cases vs with
  | nil => cases format <;> rfl
  | cons v vs => cases format <;> simp [pieces]

/-- The encoder of a list behind its first document. -/
def opened : ListFormat → ListEncoder
  | .array => ⟨.array, true, false⟩
  | .lines => ⟨.lines, false, false⟩

theorem close_opened (format : ListFormat) : (opened format).close.1 = lastPiece format := by
  cases format <;> rfl

section Encode

variable {e : E} {v : Json}

theorem encodeEntity_start (format : ListFormat) (h : m.toDocument c e = .ok v) :
    ∃ bs, encodeEntity m c (.start format) e = .ok (bs, opened format) ∧
      ∀ vs, pieces format (v :: vs) = bs :: vs.map (laterPiece format) := by
  rw [encodeEntity, h]
  cases format with
  | array => exact ⟨_, rfl, fun vs => rfl⟩
  | lines => exact ⟨_, rfl, fun vs => rfl⟩

theorem encodeEntity_opened (h : m.toDocument c e = .ok v) :
    encodeEntity m c (opened format) e = .ok (laterPiece format v, opened format) := by
  rw [encodeEntity, h]
  cases format <;> rfl

theorem encodeEntity_refused {why : String} (encoder : ListEncoder)
    (h : m.toDocument c e = .refused why) : encodeEntity m c encoder e = .refused why := by
  rw [encodeEntity, h]
  rfl

theorem encodeEntity_panicked {p : Payload} (encoder : ListEncoder)
    (h : m.toDocument c e = .panicked p) : encodeEntity m c encoder e = .panicked p := by
  rw [encodeEntity, h]
  rfl

end Encode

theorem data_closing (format : ListFormat) (logs : List LogRecord) :
    (closing (opened format) logs).map Frame.data = [lastPiece format] := by
  rw [closing, close_opened]
  rfl

/-- Behind the first document there is a frame for each document that can be had and one that closes
the list. -/
theorem data_frames (items : List (Fetched E)) :
    (frames m c (opened format) items).map Frame.data =
      (leading m c items).map (laterPiece format) ++ [lastPiece format] := by
  induction items with
  | nil => exact data_closing format _
  | cons item items ih =>
      cases item with
      | error x => exact data_closing format _
      | panic p => exact data_closing format _
      | entity e =>
          cases hv : m.toDocument c e with
          | ok v =>
              rw [frames, encodeEntity_opened hv, leading, hv]
              exact congrArg (laterPiece format v :: ·) ih
          | refused why =>
              rw [frames, encodeEntity_refused _ hv, leading, hv]
              exact data_closing format _
          | panicked p =>
              rw [frames, encodeEntity_panicked _ hv, leading, hv]
              exact data_closing format _

/-! ## Fetching -/

/-- The items of a stream that have not been fetched yet, and how many have been. -/
structure Source (E : Type) where
  items : List (Fetched E)
  fetched : Nat

def Source.fetch (s : Source E) : Option (Fetched E) × Source E :=
  match s.items with
  | [] => (none, s)
  | item :: items => (some item, ⟨items, s.fetched + 1⟩)

/-- A list of which some frames have been read. -/
structure Reading (E : Type) where
  source : Source E
  encoder : ListEncoder
  closed : Bool

namespace Reading

def close (r : Reading E) (logs : List LogRecord) : Frame × Reading E :=
  (⟨r.encoder.close.1, logs⟩, { r with encoder := r.encoder.close.2, closed := true })

/-- The next frame of a list that is not closed: fetches an item, which is framed or closes the list. -/
def next (m : Mapping E) (c : Context) (r : Reading E) : Option (Frame × Reading E) :=
  if r.closed then none
  else
    let (item, source) := r.source.fetch
    let r := { r with source }
    match item with
    | none => r.close []
    | some (.error e) => r.close [.warn s!"Aborting list after failing to fetch entity: {e.message}"]
    | some (.panic p) =>
      r.close [.error s!"Aborting list after panic while fetching entity: {p.toError.message}"]
    | some (.entity e) =>
      match encodeEntity m c r.encoder e with
      | .ok (bs, encoder) => some (⟨bs, []⟩, { r with encoder })
      | .refused why => r.close [.warn s!"Aborting list after failing to encode entity: {why}"]
      | .panicked p =>
        r.close [.error s!"Aborting list after panic while encoding entity: {p.toError.message}"]

/-- At most so many frames. -/
def take (m : Mapping E) (c : Context) : Nat → Reading E → List Frame × Reading E
  | 0, r => ([], r)
  | n + 1, r =>
    match r.next m c with
    | none => ([], r)
    | some (frame, r) =>
      let (frames, r) := take m c n r
      (frame :: frames, r)

theorem take_of_closed {r : Reading E} (h : r.closed = true) (n : Nat) : r.take m c n = ([], r) := by
  cases n with
  | zero => rfl
  | succ n => rw [take, next, if_pos h]

/-- The frame that is next: the last one of the list, or that of an entity, before which an item has
been fetched. -/
theorem next_opened (m : Mapping E) (c : Context) (format : ListFormat) (items : List (Fetched E))
    (fetched : Nat) :
    (∃ frame r, next m c ⟨⟨items, fetched⟩, opened format, false⟩ = some (frame, r) ∧
      frames m c (opened format) items = [frame] ∧ r.closed = true ∧
      r.source.fetched ≤ fetched + 1) ∨
    ∃ frame v items', next m c ⟨⟨items, fetched⟩, opened format, false⟩ =
        some (frame, ⟨⟨items', fetched + 1⟩, opened format, false⟩) ∧
      frames m c (opened format) items = frame :: frames m c (opened format) items' ∧
      leading m c items = v :: leading m c items' := by
  cases items with
  | nil => exact Or.inl ⟨_, _, rfl, rfl, rfl, Nat.le_succ fetched⟩
  | cons item items =>
      cases item with
      | error x => exact Or.inl ⟨_, _, rfl, rfl, rfl, Nat.le_refl _⟩
      | panic p => exact Or.inl ⟨_, _, rfl, rfl, rfl, Nat.le_refl _⟩
      | entity e =>
          cases hv : m.toDocument c e with
          | refused why =>
              simp only [next, Source.fetch, frames, encodeEntity_refused _ hv]
              exact Or.inl ⟨_, _, rfl, rfl, rfl, Nat.le_refl _⟩
          | panicked p =>
              simp only [next, Source.fetch, frames, encodeEntity_panicked _ hv]
              exact Or.inl ⟨_, _, rfl, rfl, rfl, Nat.le_refl _⟩
          | ok v =>
              simp only [next, Source.fetch, frames, encodeEntity_opened hv, leading, hv]
              exact Or.inr ⟨_, v, items, rfl, rfl, rfl⟩

/-- Reading a list that is open gives its frames one by one, and fetches no item behind the first one
that cannot be fetched or mapped. -/
theorem take_opened (m : Mapping E) (c : Context) (format : ListFormat) (items : List (Fetched E))
    (fetched n : Nat) :
    let o := take m c n ⟨⟨items, fetched⟩, opened format, false⟩
    o.1 = (frames m c (opened format) items).take n ∧
      o.2.source.fetched ≤ fetched + ((leading m c items).length + 1) := by
  induction n generalizing items fetched with
  | zero => exact ⟨rfl, Nat.le_add_right _ _⟩
  | succ n ih =>
      rcases next_opened m c format items fetched with
        ⟨frame, r, hnext, hframes, hclosed, hfetched⟩ | ⟨frame, v, items', hnext, hframes, hleading⟩
      · simp only [take, hnext, hframes, take_of_closed hclosed, List.take_succ_cons, List.take_nil]
        exact ⟨trivial, by omega⟩
      · obtain ⟨htake, hfetched⟩ := ih items' (fetched + 1)
        simp only [take, hnext, hframes, hleading, List.take_succ_cons, List.length_cons]
        exact ⟨congrArg _ htake, by omega⟩

/-- Starts a list, and fetches one item for that. Of a list that is opened there is one frame yet. -/
def begin (m : Mapping E) (c : Context) (format : ListFormat) (source : Source E) :
    Opening × Reading E :=
  let (item, source) := source.fetch
  let r : Reading E := ⟨source, .start format, false⟩
  match item with
  | none => (.empty (ListEncoder.start format).close.1, r)
  | some (.error e) =>
    (.failed [.error s!"Cannot fetch first entity: {e.message}"] ⟨.internalServerError, e.message⟩, r)
  | some (.panic p) => (.panicked p, r)
  | some (.entity e) =>
    match encodeEntity m c (.start format) e with
    | .ok (bs, encoder) => (.opened [⟨bs, []⟩], { r with encoder })
    | .refused why => (.failed [] ⟨.internalServerError, why⟩, r)
    | .panicked p => (.panicked p, r)

end Reading

/-- A list as far as it has been opened and at most so many frames have been read behind the first,
and how many items have been fetched for that. -/
def fetching (m : Mapping E) (c : Context) (format : ListFormat) (items : List (Fetched E)) (n : Nat) :
    Opening × Nat :=
  match Reading.begin m c format ⟨items, 0⟩ with
  | (.opened head, r) =>
    let (frames, r) := r.take m c n
    (.opened (head ++ frames), r.source.fetched)
  | (o, r) => (o, r.source.fetched)

/-- A list of which at most so many frames are read. -/
def Opening.upTo (n : Nat) : Opening → Opening
  | .opened frames => .opened (frames.take n)
  | o => o

theorem fetching_eq (m : Mapping E) (c : Context) (format : ListFormat) (items : List (Fetched E))
    (n : Nat) :
    (fetching m c format items n).1 = (start m c format items).upTo (n + 1) ∧
      (fetching m c format items n).2 ≤ (leading m c items).length + 1 := by
  cases items with
  | nil => exact ⟨rfl, Nat.zero_le _⟩
  | cons item items =>
      cases item with
      | error x => exact ⟨rfl, Nat.le_refl _⟩
      | panic p => exact ⟨rfl, Nat.le_refl _⟩
      | entity e =>
          cases hv : m.toDocument c e with
          | refused why =>
              simp only [fetching, Reading.begin, Source.fetch, start, encodeEntity_refused _ hv]
              exact ⟨rfl, Nat.le_add_left _ _⟩
          | panicked p =>
              simp only [fetching, Reading.begin, Source.fetch, start, encodeEntity_panicked _ hv]
              exact ⟨rfl, Nat.le_add_left _ _⟩
          | ok v =>
              obtain ⟨bs, hencoded, -⟩ := encodeEntity_start format hv
              obtain ⟨htake, hfetched⟩ := Reading.take_opened m c format items (0 + 1) n
              simp only [fetching, Reading.begin, Source.fetch, start, hencoded, leading, hv,
                Opening.upTo, List.take_succ_cons, List.singleton_append, List.length_cons]
              exact ⟨congrArg (fun fs => Opening.opened (⟨bs, []⟩ :: fs)) htake, by omega⟩

/-- The items behind the first one that cannot be fetched or mapped do not matter. -/
theorem frames_take (encoder : ListEncoder) (items : List (Fetched E)) :
    frames m c encoder (items.take ((leading m c items).length + 1)) = frames m c encoder items := by
  induction items generalizing encoder with
  | nil => rfl
  | cons item items ih =>
      cases item with
      | error x => rfl
      | panic p => rfl
      | entity e =>
          cases hv : m.toDocument c e with
          | refused why => simp only [List.take_succ_cons, frames, encodeEntity_refused _ hv]
          | panicked p => simp only [List.take_succ_cons, frames, encodeEntity_panicked _ hv]
          | ok v =>
              simp only [leading, hv, List.length_cons, List.take_succ_cons, frames, ih]

theorem start_take (items : List (Fetched E)) :
    start m c format (items.take ((leading m c items).length + 1)) = start m c format items := by
  cases items with
  | nil => rfl
  | cons item items =>
      cases item with
      | error x => rfl
      | panic p => rfl
      | entity e =>
          cases hv : m.toDocument c e with
          | refused why => simp only [List.take_succ_cons, start, encodeEntity_refused _ hv]
          | panicked p => simp only [List.take_succ_cons, start, encodeEntity_panicked _ hv]
          | ok v =>
              simp only [leading, hv, List.length_cons, List.take_succ_cons, start, frames_take]

/-! ## Starting -/

theorem start_nil (m : Mapping E) (c : Context) (format : ListFormat) :
    start m c format [] = .empty (ListDecoder.text format []) := by
  cases format <;> rfl

/-- If the first item cannot be fetched or mapped, nothing of a list is there. -/
theorem start_of_leading_nil (format : ListFormat) {items : List (Fetched E)} (hitems : items ≠ [])
    (h : leading m c items = []) :
    (∃ logs e, start m c format items = .failed logs e) ∨
      ∃ p, start m c format items = .panicked p := by
  cases items with
  | nil => exact absurd rfl hitems
  | cons item items =>
      cases item with
      | error x => exact Or.inl ⟨_, _, rfl⟩
      | panic p => exact Or.inr ⟨p, rfl⟩
      | entity e =>
          cases hv : m.toDocument c e with
          | refused why =>
              simp only [start, encodeEntity_refused _ hv]
              exact Or.inl ⟨_, _, rfl⟩
          | panicked p =>
              simp only [start, encodeEntity_panicked _ hv]
              exact Or.inr ⟨p, rfl⟩
          | ok v => simp [leading, hv] at h

theorem start_of_leading (format : ListFormat) {items : List (Fetched E)} (h : leading m c items ≠ []) :
    ∃ fs, start m c format items = .opened fs ∧
      fs.map Frame.data = pieces format (leading m c items) ++ [lastPiece format] := by
  cases items with
  | nil => exact absurd rfl h
  | cons item items =>
      cases item with
      | error x => exact absurd rfl h
      | panic p => exact absurd rfl h
      | entity e =>
          cases hv : m.toDocument c e with
          | refused why => simp [leading, hv] at h
          | panicked p => simp [leading, hv] at h
          | ok v =>
              obtain ⟨bs, hencoded, hpieces⟩ := encodeEntity_start format hv
              simp only [start, hencoded, leading, hv, hpieces]
              exact ⟨_, rfl, congrArg (bs :: ·) (data_frames items)⟩

end Listing

/-! ## Responses -/

variable {S E I : Type}

theorem Serving.outcome_tells {α : Type} (answer : (q : Call S E I) → Act S (Call.Answer q))
    (rs : List LogRecord) (x : Serving S E I α) (s : S) :
    outcome answer (rs.forM tell >>= fun _ => x) s = outcome answer x s := by
  induction rs with
  | nil => rfl
  | cons r rs ih => exact ih

/-- What comes of a request for a list: the list is opened, or its stream is released. -/
theorem outcome_index_of_stream {r : Resource S E I} (routers : NodeId → Service S)
    {f : Context → Act S (EntityStream S E)} (hindex : r.operations.index = some f) {c : Context}
    {s s' : S} {stream : EntityStream S E} (hstream : Act.outcome (f c) s = (.ok stream, s'))
    {out : MediaCodec} {format : ListFormat} (hformat : out.codec.streaming = some format) :
    Serving.outcome (r.answer routers) (r.index c out) s =
      match Listing.start (r.mappings.get out.mediaType) c format stream.items with
      | .opened frames => (.ok (.ok ⟨200, [("content-type", Utf8.encode out.mediaType)], frames,
          stream.release⟩), s')
      | .empty body => (.ok (.ok (.ofBytes 200 out.mediaType body)), stream.release s')
      | .failed _ e => (.ok (.error e), stream.release s')
      | .panicked p => (.error p, stream.release s') := by
  have hanswer : Act.outcome (r.answer routers (.index c)) s = (.ok stream, s') := by
    simp only [answer, hindex]
    exact hstream
  have hreleased : Act.outcome (r.answer routers (.release stream.release)) s' =
      (.ok (), stream.release s') := rfl
  unfold index
  simp only [hindex, hformat, Option.isNone_some, Bool.false_eq_true, if_false]
  rw [Serving.outcome_ask_bind _ hanswer]
  cases Listing.start (r.mappings.get out.mediaType) c format stream.items with
  | opened frames => rfl
  | empty body => exact Serving.outcome_ask_bind _ hreleased _
  | panicked p => exact Serving.outcome_ask_bind _ hreleased _
  | failed logs e =>
      simp only
      rw [Serving.outcome_ask_bind _ hreleased, Serving.outcome_tells]
      rfl

/-- The codec for the response to a request. -/
def responseCodec (r : Resource S E I) (request : Request) : MediaCodec :=
  .forResponse request.headers r.codecs (.forRequest request.headers r.codecs)

/-- What comes of a request before an error or a panic becomes a response. -/
def performed (r : Resource S E I) (routers : NodeId → Service S) (request : Request) (s : S) :
    Except Payload (Except ApiError (Response S)) × S :=
  Serving.outcome (r.answer routers)
    (r.perform request (.forRequest request.headers r.codecs) (r.responseCodec request)) s

section Performed

variable {r : Resource S E I} {routers : NodeId → Service S} {request : Request} {s s' : S}

theorem outcome_handler_ok {response : Response S}
    (h : r.performed routers request s = (.ok (.ok response), s')) :
    Act.outcome (r.handler.serve routers request) s = (.ok response, s') := by
  apply Handler.outcome_recovering_ok
  rw [performed, responseCodec] at h
  rw [service, outcome_serve, h]
  rfl

theorem outcome_handler_error (herror : r.errorHandler = none) {e : ApiError}
    (h : r.performed routers request s = (.ok (.error e), s')) :
    Act.outcome (r.handler.serve routers request) s =
      (.ok (e.render (r.responseCodec request) request.path).2, s') := by
  have hrendered := outcome_handler_of_error h
  rw [renderedError, herror] at hrendered
  exact hrendered

theorem outcome_handler_panic {p : Payload}
    (h : r.performed routers request s = (.error p, s')) :
    Act.outcome (r.handler.serve routers request) s =
      (.ok (p.toError.render (.forResponseTo request.headers []) request.path).2, s') :=
  outcome_handler_of_panic h

end Performed

theorem status_ge (k : ErrorKind) : 400 ≤ k.status := by
  cases k <;> decide

/-- A response to a request for a list of entities, as the items of their stream make it. -/
structure Listing.Answers (m : Mapping E) (c : Context) (format : ListFormat)
    (items : List (Fetched E)) (response : Response S) : Prop where
  empty : items = [] → response.status = 200 ∧ response.bytes = ListDecoder.text format []
  /-- If no document can be had, there is an error and nothing of a list. -/
  failed : items ≠ [] → leading m c items = [] → 400 ≤ response.status ∧
    ∃ (e : ApiError) (n : MediaCodec) (uri : String), response = (e.render n uri).2
  status : leading m c items ≠ [] → response.status = 200
  /-- There is a frame for each document that can be had, and one that closes the list. -/
  frames : leading m c items ≠ [] → response.frames.length = (leading m c items).length + 1 ∧
    response.frames.map Frame.data = pieces format (leading m c items) ++ [lastPiece format]
  decoded : leading m c items ≠ [] → (∀ v ∈ leading m c items, v.Readable) →
    decodeList format response.bytes = .ok (leading m c items)
  /-- The frames are read off the stream one by one. -/
  read : leading m c items ≠ [] → ∀ n,
    (fetching m c format items n).1 = .opened (response.frames.take (n + 1))
  /-- However many frames are read, the item behind the documents is the last one to be fetched. -/
  fetched : ∀ n, (fetching m c format items n).2 ≤ (leading m c items).length + 1

namespace Listing.Answers

variable {m : Mapping E} {c : Context} {format : ListFormat} {items : List (Fetched E)}

theorem of_empty {mediaType : String} (h : items = []) :
    Answers m c format items (.ofBytes 200 mediaType (ListDecoder.text format []) : Response S) := by
  subst h
  have hleading : ¬ leading m c [] ≠ [] := fun h => h rfl
  refine ⟨fun _ => ⟨rfl, ?_⟩, fun h => absurd rfl h, fun h => absurd h hleading,
    fun h => absurd h hleading, fun h => absurd h hleading, fun h => absurd h hleading,
    fun n => (fetching_eq m c format [] n).2⟩
  exact Response.bytes_ofBytes

theorem of_error (hitems : items ≠ []) (hleading : leading m c items = []) (e : ApiError)
    (n : MediaCodec) (uri : String) :
    Answers m c format items ((e.render n uri).2 : Response S) := by
  refine ⟨fun h => absurd h hitems, fun _ _ => ⟨?_, e, n, uri, rfl⟩, fun h => absurd hleading h,
    fun h => absurd hleading h, fun h => absurd hleading h, fun h => absurd hleading h,
    fun n => (fetching_eq m c format items n).2⟩
  rw [ApiError.status_render]
  exact status_ge e.kind

theorem of_opened {fs : List Frame} {headers : Headers} {release : S → S}
    (hleading : leading m c items ≠ []) (hstart : start m c format items = .opened fs)
    (hframes : fs.map Frame.data = pieces format (leading m c items) ++ [lastPiece format]) :
    Answers m c format items ⟨200, headers, fs, release⟩ := by
  have hbytes : (⟨200, headers, fs, release⟩ : Response S).bytes =
      ListDecoder.text format (leading m c items) := by
    rw [Response.bytes, List.flatMap_def, hframes, flatten_pieces hleading]
  have hlength : fs.length = (leading m c items).length + 1 := by
    rw [← List.length_map (f := Frame.data), hframes, List.length_append, length_pieces]
    rfl
  refine ⟨?_, fun _ h => absurd h hleading, fun _ => rfl, fun _ => ⟨hlength, hframes⟩,
    fun _ hreadable => ?_, fun _ n => ?_, fun n => (fetching_eq m c format items n).2⟩
  · rintro rfl
    exact absurd rfl hleading
  · rw [hbytes]
    exact decodeList_text format hreadable
  · rw [(fetching_eq m c format items n).1, hstart]
    rfl

end Listing.Answers

/-- A request for the list of entities is answered by a whole list or by an error, whatever happens
while the entities are fetched and mapped. -/
theorem serve_index_answers {r : Resource S E I} {routers : NodeId → Service S} {request : Request}
    {f : Context → Act S (EntityStream S E)} {c : Context} {stream : EntityStream S E}
    {format : ListFormat} {s s₁ s₂ : S} (hindex : r.operations.index = some f)
    (herror : r.errorHandler = none) (hmethod : request.method = "GET")
    (hleft : request.routing.left = [])
    (hformat : (r.responseCodec request).codec.streaming = some format)
    (hhook : Act.outcome (r.answer routers (.prepareCollection (context request))) s =
      (.ok (.ok c), s₁))
    (hstream : Act.outcome (f c) s₁ = (.ok stream, s₂)) :
    let m := r.mappings.get (r.responseCodec request).mediaType
    ∃ response s', Act.outcome (r.handler.serve routers request) s = (.ok response, s') ∧
      Listing.Answers m c format stream.items response ∧
      Listing.start m c format (stream.items.take ((Listing.leading m c stream.items).length + 1)) =
        Listing.start m c format stream.items := by
  intro m
  suffices h : ∃ response s', Act.outcome (r.handler.serve routers request) s =
      (.ok response, s') ∧ Listing.Answers m c format stream.items response by
    obtain ⟨response, s', hserve, hanswers⟩ := h
    exact ⟨response, s', hserve, hanswers, Listing.start_take _⟩
  have hperformed : r.performed routers request s =
      Serving.outcome (r.answer routers) (r.index c (r.responseCodec request)) s₁ := by
    rw [performed, perform]
    simp only [PathCursor.shift, hleft]
    rw [serveCollection, Serving.outcome_ask_bind _ hhook]
    simp only [Serving.ofExcept, pure_bind, hmethod]
    rfl
  have houtcome := outcome_index_of_stream routers hindex hstream hformat
  by_cases hitems : stream.items = []
  · rw [hitems, Listing.start_nil] at houtcome
    exact ⟨_, _, outcome_handler_ok (hperformed.trans houtcome), .of_empty hitems⟩
  by_cases hleading : Listing.leading m c stream.items = []
  · rcases Listing.start_of_leading_nil format hitems hleading with
      ⟨logs, e, hstart⟩ | ⟨p, hstart⟩
    · rw [hstart] at houtcome
      exact ⟨_, _, outcome_handler_error herror (hperformed.trans houtcome),
        .of_error hitems hleading e _ _⟩
    · rw [hstart] at houtcome
      exact ⟨_, _, outcome_handler_panic (hperformed.trans houtcome),
        .of_error hitems hleading p.toError _ _⟩
  · obtain ⟨fs, hstart, hframes⟩ := Listing.start_of_leading format hleading
    rw [hstart] at houtcome
    exact ⟨_, _, outcome_handler_ok (hperformed.trans houtcome),
      .of_opened hleading hstart hframes⟩

/-! ## A list that is cut short -/

/-- A list of numbers of which the third one cannot be fetched. -/
def interruptedItems : List (Fetched Json) :=
  [.entity (.int 1), .entity (.int 2), .error Memory.notFound, .entity (.int 4)]

def interrupted : Resource Unit Json String :=
  { Resource.plain .text with
    operations := { Operations.none with index := some fun _ => .done ⟨interruptedItems, id⟩ } }

def listRequest : Request := ⟨"GET", ⟨none, none, "/", none⟩, [], [], .empty⟩

theorem serve_index_answers_interrupted : ∃ response s',
    Act.outcome (interrupted.handler.serve (fun _ _ => .panic .other) listRequest) () =
      (.ok response, s') ∧
    response.status = 200 ∧
    response.frames.map Frame.data = [[0x5B, 0x31], [0x2C, 0x32], [0x5D]] ∧
    decodeList .array response.bytes = .ok [.int 1, .int 2] := by
  have hdocuments : Listing.leading .identity (context listRequest) interruptedItems =
      [.int 1, .int 2] := rfl
  have hreadable : ∀ v ∈ [Json.int 1, .int 2], v.Readable := by
    rw [List.forall_mem_cons, List.forall_mem_singleton]
    exact ⟨⟨⟨by decide, by decide⟩, by decide⟩, ⟨by decide, by decide⟩, by decide⟩
  have hleft : listRequest.routing.left = [] := by decide
  let routers : NodeId → Service Unit := fun _ _ => .panic .other
  obtain ⟨response, s', hserve, hanswers, -⟩ : ∃ response s',
      Act.outcome (interrupted.handler.serve routers listRequest) () = (.ok response, s') ∧ _ :=
    serve_index_answers (r := interrupted) (s := ()) rfl rfl rfl hleft rfl rfl rfl
  have hsome : Listing.leading .identity (context listRequest) interruptedItems ≠ [] := nofun
  refine ⟨response, s', hserve, hanswers.status hsome, (hanswers.frames hsome).2, ?_⟩
  exact hanswers.decoded hsome (hdocuments ▸ hreadable)

end WebResource.Resource
