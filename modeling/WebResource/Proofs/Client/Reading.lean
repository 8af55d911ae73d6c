import WebResource.Proofs.Client.Events
import WebResource.Proofs.Client.Sending
import WebResource.Proofs.Client.Streaming
import WebResource.Proofs.Context.Waiting

namespace WebResource

/-!
# Lists that are read as they arrive

Whoever takes results from the list of all entities gets what the events of the list give, in their
order, and reads no more of the body than comes before the last result that is taken.
-/

variable {S E I α β : Type} {c : Context}

/-! ## Runs with their logs -/

namespace Act

theorem run_bind {x : Act S α} {a : α} {logs : List LogRecord} {s s' : S}
    (h : run x s = ⟨.ok a, logs, s'⟩) (f : α → Act S β) :
    run (x.bind f) s = { run (f a) s' with logs := logs ++ (run (f a) s').logs } := by
  induction x generalizing s logs with
  | done a' =>
      cases h
      rfl
  | panic p => cases h
  | log r x ih =>
      have hrest : run x s = ⟨.ok a, (run x s).logs, s'⟩ := by
        cases hrun : run x s with
        | mk result logs' s'' =>
            simp only [run, hrun] at h
            cases h
            rfl
      have hlogs : logs = r :: (run x s).logs := (congrArg Run.logs h).symm
      rw [hlogs, Prog.bind, run, ih hrest]
      rfl
  | ask f' k ih => exact ih (.ok s) h

theorem run_bind_ok {x : Act S α} {f : α → Act S β} {a : α} {b : β} {logs logs' : List LogRecord}
    {s s' s'' : S} (h : run x s = ⟨.ok a, logs, s'⟩) (hf : run (f a) s' = ⟨.ok b, logs', s''⟩) :
    run (x.bind f) s = ⟨.ok b, logs ++ logs', s''⟩ := by
  rw [run_bind h, hf]

theorem run_logs (rs : List LogRecord) (a : α) (s : S) :
    run (rs.foldr .log (.done a)) s = ⟨.ok a, rs, s⟩ := by
  induction rs with
  | nil => rfl
  | cons r rs ih =>
      rw [List.foldr_cons, run, ih]

end Act

/-! ## Bodies -/

namespace Body

/-- How the chunks of a body come: frame by frame, up to its end or a failure. -/
inductive Arrives : List Chunk → List Frame → Option TransportError → Prop where
  | ended : Arrives [] [] none
  | failed (e : TransportError) (more : List Chunk) : Arrives (.failure e :: more) [] (some e)
  | data {chunks : List Chunk} {frames : List Frame} {ending : Option TransportError} (frame : Frame)
      (h : Arrives chunks frames ending) : Arrives (.data frame :: chunks) (frame :: frames) ending

section Live

variable {w : Timed S} (hlive : c.NeverDone w.time)

include hlive

theorem run_interruption : Act.run (interruption (some c)) w = ⟨.ok none, [], w⟩ :=
  congrArg (fun e => (⟨.ok e, [], w⟩ : Act.Run _ _)) hlive.err_eq

theorem run_await (frame : Frame) :
    Act.run (await (some c) (.data frame)) w = ⟨.ok (.data frame.data), frame.logs, w⟩ :=
  Act.run_bind_ok (run_interruption hlive) (Act.run_logs frame.logs _ w)

theorem run_await_failure (e : TransportError) :
    Act.run (await (some c) (.failure e)) w = ⟨.ok (.failed e), [], w⟩ :=
  Act.run_bind_ok (run_interruption hlive) rfl

end Live

/-- Nothing is waited for between two chunks. -/
theorem run_advance (b : Body S) (chunks : List Chunk) (w : Timed S) :
    ∃ b' w', Act.run (b.advance chunks) w = ⟨.ok b', [], w'⟩ ∧ b'.watch = b.watch ∧
      w'.time = w.time := by
  cases chunks with
  | nil => exact ⟨_, _, rfl, rfl, rfl⟩
  | cons chunk chunks => exact ⟨_, _, rfl, rfl, rfl⟩

end Body

/-! ## Streams -/

open Event (drained ofFrames upTo given)

namespace Entities

/-- The events that are still to come from a stream. -/
inductive Tells (m : Mapping E) (c : Context) : Entities S E I → List (Event E) → Prop where
  | arriving {r : ListReader S E} {frames : List Frame} {ending : Option TransportError}
      (hmapping : r.mapping = m) (hcontext : r.context = c) (hwatch : r.body.watch = some c)
      (heof : r.eof = false) (hchunks : Body.Arrives r.body.chunks frames ending) :
      Tells m c (.arriving r) (ofFrames (m.ofDocument c) ending r.decoder r.buffer frames)
  | arrived {r : ListReader S E} (hmapping : r.mapping = m) (hcontext : r.context = c)
      (heof : r.eof = true) :
      Tells m c (.arriving r) (drained (m.ofDocument c) (r.decoder.drain true r.buffer) [])
  | ended : Tells m c .ended []

/-- A step of a stream goes through its events up to the first result and leaves the others, or
finds that there are no more results. It waits for nothing. -/
inductive Steps (m : Mapping E) (c : Context) (x : Act (Timed S) (Next S E I)) (w : Timed S) :
    List (Event E) → Prop where
  | ended {w' : Timed S} (frames : List Frame)
      (h : Act.run x w = ⟨.ok .ended, frames.flatMap Frame.logs, w'⟩) :
      Steps m c x w (frames.map .arrived)
  | item {w' : Timed S} {rest : Entities S E I} {later : List (Event E)} (frames : List Frame)
      (r : Except ClientError E) (h : Act.run x w = ⟨.ok (.item r rest), frames.flatMap Frame.logs, w'⟩)
      (htime : w'.time = w.time) (hrest : Tells m c rest later) :
      Steps m c x w (frames.map .arrived ++ .gave r :: later)

variable {m : Mapping E} {w w' : Timed S} {events : List (Event E)}

theorem Steps.prepend {x : Act (Timed S) α} {f : α → Act (Timed S) (Next S E I)} {a : α}
    (hx : Act.run x w = ⟨.ok a, [], w'⟩) (htime : w'.time = w.time) (h : Steps m c (f a) w' events) :
    Steps m c (x.bind f) w events := by
  cases h with
  | ended frames h => exact .ended frames (Act.run_bind_ok hx h)
  | item frames r h ht hrest => exact .item frames r (Act.run_bind_ok hx h) (ht.trans htime) hrest

theorem Steps.arrived {x : Act (Timed S) α} {f : α → Act (Timed S) (Next S E I)} {a : α}
    {frame : Frame} (hx : Act.run x w = ⟨.ok a, frame.logs, w'⟩) (htime : w'.time = w.time)
    (h : Steps m c (f a) w' events) : Steps m c (x.bind f) w (.arrived frame :: events) := by
  cases h with
  | ended frames h => exact .ended (frame :: frames) (Act.run_bind_ok hx h)
  | item frames r h ht hrest =>
      exact .item (frame :: frames) r (Act.run_bind_ok hx h) (ht.trans htime) hrest

theorem steps_error (b : Body S) (x : ClientError) (w : Timed S) :
    Steps m c (ListReader.fail b x : Act (Timed S) (Next S E I)) w [.gave (.error x)] :=
  .item [] _ rfl rfl .ended

end Entities

/-! ## Readers -/

namespace ListReader

open Entities (Tells Steps)

variable {m : Mapping E} {w : Timed S} {r : ListReader S E} {b : Body S} {d : ListDecoder}
  {buffer : Bytes} {eof : Bool}

/-- What is made of a pull are the first events of the drain that it starts. -/
theorem steps_found (hconvert : ∀ v p, m.ofDocument c v ≠ .panicked p) (hmapping : r.mapping = m)
    (hcontext : r.context = c) (hformat : r.decoder.format = d.format)
    (more : Act (Timed S) (Next S E I)) (later : List (Event E))
    (hmore : (d.pull eof buffer).result = .ok none → Steps m c more w later)
    (hrest : ∀ v, (d.pull eof buffer).result = .ok (some v) →
      Tells m c (Entities.arriving (I := I) { r with
          body := b, decoder := d.moved (d.pull eof buffer), buffer := (d.pull eof buffer).rest, eof })
        (drained (m.ofDocument c) ((d.moved (d.pull eof buffer)).drain eof (d.pull eof buffer).rest)
          later)) :
    Steps m c (r.found b (d.pull eof buffer) eof more) w
      (drained (m.ofDocument c) (d.drain eof buffer) later) := by
  cases hresult : (d.pull eof buffer).result with
  | error f =>
      rw [ListDecoder.drain_of_error hresult, found, hresult]
      exact Entities.steps_error b _ w
  | ok document? =>
      cases document? with
      | none =>
          rw [ListDecoder.drain_of_none hresult, found, hresult]
          exact hmore hresult
      | some v =>
          have hmoved : (⟨r.decoder.format, (d.pull eof buffer).phase⟩ : ListDecoder) =
              d.moved (d.pull eof buffer) := congrArg (ListDecoder.mk · _) hformat
          have hnext := hrest v hresult
          rw [ListDecoder.drain_of_some hresult, Event.drained_cons, found, hresult]
          simp only [hmapping, hcontext, hmoved] at hnext ⊢
          cases hv : m.ofDocument c v with
          | panicked p => exact absurd hv (hconvert v p)
          | refused why => exact Entities.steps_error b _ w
          | ok e => exact .item [] _ rfl rfl hnext

variable (hconvert : ∀ v p, m.ofDocument c v ≠ .panicked p) (hmapping : r.mapping = m)
  (hcontext : r.context = c) (hformat : r.decoder.format = d.format)

include hconvert hmapping hcontext hformat

theorem steps_finish (w : Timed S) :
    Steps m c (r.finish b d buffer : Act (Timed S) (Next S E I)) w
      (drained (m.ofDocument c) (d.drain true buffer) []) := by
  apply steps_found hconvert hmapping hcontext hformat
  · intro _
    exact .ended [] rfl
  · intro v _
    exact .arrived hmapping hcontext rfl

/-- A document in the buffer is given first, and leaves a reader of the same chunks. -/
theorem steps_decode {chunks : List Chunk} {frames : List Frame} {ending : Option TransportError}
    (hchunks : Body.Arrives chunks frames ending) (hwatch : b.watch = some c)
    {more : Act (Timed S) (Next S E I)}
    (hmore : Steps m c more w (Event.afterDrain (m.ofDocument c) ending
      ⟨[], none, d.moved (d.decode buffer), (d.decode buffer).rest⟩ frames)) :
    Steps m c (r.found { b with chunks } (d.decode buffer) false more) w
      (ofFrames (m.ofDocument c) ending d buffer frames) := by
  rw [Event.ofFrames_eq]
  apply steps_found hconvert hmapping hcontext hformat
  · intro hnone
    rw [ListDecoder.drain_of_none hnone]
    exact hmore
  · intro v hv
    have htells : Tells m c (Entities.arriving (I := I) { r with
        body := { b with chunks }, decoder := d.moved (d.decode buffer),
        buffer := (d.decode buffer).rest, eof := false })
        (ofFrames (m.ofDocument c) ending (d.moved (d.decode buffer)) (d.decode buffer).rest frames) :=
      .arriving hmapping hcontext hwatch rfl hchunks
    rw [Event.ofFrames_eq] at htells
    rw [ListDecoder.drain_of_some hv]
    exact htells

theorem steps_advance {chunks : List Chunk} {frames : List Frame} {ending : Option TransportError}
    (hchunks : Body.Arrives chunks frames ending) (hwatch : b.watch = some c)
    (hlive : c.NeverDone w.time) :
    Steps m c (r.advance b d buffer chunks : Act (Timed S) (Next S E I)) w
      (ofFrames (m.ofDocument c) ending d buffer frames) := by
  induction hchunks generalizing b d buffer w with
  | ended =>
      rw [advance_nil]
      apply steps_decode hconvert hmapping hcontext hformat .ended hwatch
      rw [hwatch]
      refine .prepend (Body.run_interruption hlive) rfl ?_
      exact steps_finish (d := d.moved (d.decode buffer)) hconvert hmapping hcontext hformat w
  | failed e more =>
      rw [advance_cons]
      apply steps_decode hconvert hmapping hcontext hformat (.failed e more) hwatch
      rw [hwatch]
      exact .prepend (Body.run_await_failure hlive e) rfl (Entities.steps_error _ _ w)
  | @data chunks frames ending frame h ih =>
      rw [advance_cons]
      apply steps_decode hconvert hmapping hcontext hformat (.data frame h) hwatch
      obtain ⟨b', w', hadvance, hwatch', htime⟩ :=
        Body.run_advance ⟨.data frame :: chunks, b.release, some c⟩ chunks w
      rw [hwatch]
      refine .arrived (Body.run_await hlive frame) rfl (.prepend hadvance htime ?_)
      exact ih (d := d.moved (d.decode buffer)) hformat hwatch' (by rwa [htime])

end ListReader

/-! ## Taking results -/

namespace Entities

variable {m : Mapping E} {es : Entities S E I} {events : List (Event E)}
  (hconvert : ∀ v p, m.ofDocument c v ≠ .panicked p) {w : Timed S}

include hconvert

theorem steps_nextArrived (h : Tells m c es events) (hlive : c.NeverDone w.time) :
    Steps m c es.nextArrived w events := by
  cases h with
  | @arriving r frames ending hmapping hcontext hwatch heof hchunks =>
      rw [nextArrived, ListReader.next, heof]
      exact ListReader.steps_advance hconvert hmapping hcontext rfl hchunks hwatch hlive
  | @arrived r hmapping hcontext heof =>
      rw [nextArrived, ListReader.next, heof]
      exact ListReader.steps_finish hconvert hmapping hcontext rfl w
  | ended => exact .ended [] rfl

omit hconvert in
theorem Tells.next_eq {k : Client S E I} (h : Tells m c es events) : es.next k = es.nextArrived := by
  cases h <;> rfl

/-- Results that are taken are the first ones of the events, which are gone through only up to them. -/
theorem run_take (k : Client S E I) (n : Nat) (h : Tells m c es events) (hlive : c.NeverDone w.time) :
    ∃ rest w', Act.run (take k n es) w =
      ⟨.ok ((given events).take n, rest), (upTo n events).flatMap Event.logs, w'⟩ := by
  induction n generalizing es events w with
  | zero =>
      rw [List.take_zero, upTo]
      exact ⟨es, w, rfl⟩
  | succ n ih =>
      change ∃ rest w', Act.run ((es.next k).bind _) w = _
      rw [h.next_eq]
      cases steps_nextArrived hconvert h hlive with
      | @ended w' frames hrun =>
          refine ⟨.ended, w', (Act.run_bind_ok hrun rfl).trans ?_⟩
          rw [← List.append_nil (frames.map Event.arrived), Event.given_arrived, Event.upTo_arrived,
            Event.flatMap_logs_arrived]
          rfl
      | @item w' rest later frames r hrun htime hrest =>
          rw [← htime] at hlive
          obtain ⟨last, w'', htake⟩ := ih hrest hlive
          refine ⟨last, w'', Act.run_bind_ok hrun (Act.run_bind_ok htake rfl) |>.trans ?_⟩
          rw [Event.given_arrived, Event.upTo_arrived, Event.flatMap_logs_arrived, List.append_nil]
          rfl

end Entities

/-! ## The list of all entities -/

namespace Client

theorem run_bind_of_ok {x : Calling S α} {a : α} {logs : List LogRecord} {w w' : Timed S}
    (h : Act.run x.run w = ⟨.ok (.ok a), logs, w'⟩) (f : α → Calling S β) :
    Act.run (x >>= f).run w =
      { Act.run (f a).run w' with logs := logs ++ (Act.run (f a).run w').logs } := by
  rw [run_bind, Act.run_bind h]

theorem run_lift_ok {x : Act (Timed S) α} {a : α} {logs : List LogRecord} {w w' : Timed S}
    (h : Act.run x w = ⟨.ok a, logs, w'⟩) :
    Act.run (Calling.lift x).run w = ⟨.ok (.ok a), logs, w'⟩ := by
  rw [run_lift, Act.run_bind h]
  simp only [Act.run, List.append_nil]

variable {k : Client S E I} {url : String} {response : TransportResponse S} {logs : List LogRecord}
  {w w' : Timed S} {format : ListFormat}

/-- The mapping for the documents of a response. -/
def mappingFor (k : Client S E I) (response : TransportResponse S) : Mapping E :=
  k.mappings.get (k.responseCodec response.headers).mediaType

/-- A list is asked for by one request, to which there is a successful response in a format that can
be streamed. -/
structure Opens (k : Client S E I) (c : Context) (url : String) (w : Timed S) (logs : List LogRecord)
    (response : TransportResponse S) (format : ListFormat) (w' : Timed S) : Prop where
  streams : k.disableStreaming = false
  addressed : k.collectionUrl c = .ok url
  sent : ∃ q, buildRequest "GET" url k.codec.mediaType [] = .ok q ∧
    Act.run (k.transport c q) w = ⟨.ok (.ok response), logs, w'⟩
  succeeded : Status.isSuccess response.status = true
  streamed : (k.responseCodec response.headers).codec.streaming = some format

theorem run_send {method : String} {body : Bytes} {q : TransportRequest}
    (hq : buildRequest method url k.codec.mediaType body = .ok q)
    (hsent : Act.run (k.transport c q) w = ⟨.ok (.ok response), logs, w'⟩) :
    Act.run (k.send c method url body).run w =
      ⟨.ok (.ok response), .debug s!"Sending {method} {url}" :: logs, w'⟩ := by
  have htell : Act.run (Calling.lift (S := S) (Prog.tell (.debug s!"Sending {method} {url}"))).run w =
      ⟨.ok (.ok ()), [.debug s!"Sending {method} {url}"], w⟩ := rfl
  have hbuilt : Act.run (Calling.ofExcept (S := S) ClientError.transport (.ok q)).run w =
      ⟨.ok (.ok q), [], w⟩ := rfl
  have hresponse : Act.run (Calling.ofExcept (S := S) ClientError.ofTransport (.ok response)).run w' =
      ⟨.ok (.ok response), [], w'⟩ := rfl
  rw [send, run_bind_of_ok htell, hq, run_bind_of_ok hbuilt, run_bind_of_ok (run_lift_ok hsent),
    hresponse, List.append_nil]
  rfl

/-- A list that has been asked for is a stream of what is still to arrive. -/
theorem Opens.run_requestList (h : k.Opens c url w logs response format w') :
    Act.run (k.requestList c).run w =
      ⟨.ok (.ok (.arriving ⟨response.body.cancellable c, .start format, [], k.mappingFor response, c,
          false⟩)),
        .debug s!"Sending GET {url}" :: logs, w'⟩ := by
  obtain ⟨q, hq, hsent⟩ := h.sent
  have hsend := run_send hq hsent
  have hurl : Act.run (Calling.ofExcept (S := S) id (.ok url)).run w = ⟨.ok (.ok url), [], w⟩ := rfl
  rw [requestList, h.addressed, run_bind_of_ok hurl, run_bind_of_ok hsend]
  simp only [h.succeeded, h.streamed, h.streams, Bool.not_true, Bool.false_eq_true, if_false]
  exact congrArg (fun l => (⟨_, l, w'⟩ : Act.Run _ _)) (List.append_nil _)

/-- The results that are taken from the list of all entities are the first ones of its events. These
give the entities of the documents in the frames, in their order and up to the first failure, and then
an error if there is one. Only the frames before the last result that is taken are read, and none behind
an error. -/
theorem run_take_findAll (h : k.Opens (k.contextHook c) url w logs response format w')
    (hlive : (k.contextHook c).NeverDone w'.time)
    (hconvert : ∀ v p, (k.mappingFor response).ofDocument (k.contextHook c) v ≠ .panicked p)
    {frames : List Frame} {ending : Option TransportError}
    (hchunks : Body.Arrives response.body.chunks frames ending) :
    let convert := (k.mappingFor response).ofDocument (k.contextHook c)
    let events := ofFrames convert ending (.start format) [] frames
    Event.Reads frames events ∧
      given events = given (drained convert
        (ListDecoder.receive ending.isNone (.start format) [] (frames.map Frame.data))
        (Event.broken ending)) ∧
      ∀ n, ∃ rest w'', Act.run (Entities.take k (n + 1) (k.findAll c)) w =
        ⟨.ok ((given events).take (n + 1), rest), .debug s!"Sending GET {url}" :: logs ++
          (upTo (n + 1) events).flatMap Event.logs, w''⟩ := by
  intro convert events
  refine ⟨Event.reads_ofFrames hconvert ending (.start format) [] frames,
    Event.given_ofFrames_start ending format frames, fun n => ?_⟩
  have htells : Entities.Tells (k.mappingFor response) (k.contextHook c)
      (Entities.arriving (I := I) ⟨response.body.cancellable (k.contextHook c), .start format, [],
        k.mappingFor response, k.contextHook c, false⟩) events :=
    .arriving rfl rfl rfl rfl hchunks
  obtain ⟨rest, w'', htake⟩ := Entities.run_take hconvert k (n + 1) htells hlive
  refine ⟨rest, w'', ?_⟩
  change Act.run (Prog.bind (Prog.bind (k.requestList (k.contextHook c)).run _) _) w = _
  rw [Prog.bind_assoc, Act.run_bind h.run_requestList]
  exact congrArg (fun o : Act.Run _ _ =>
    { o with logs := (LogRecord.debug s!"Sending GET {url}" :: logs) ++ o.logs }) htake

/-- A list of numbers whose connection is closed behind the start of the third one. -/
def cutOff : TransportResponse Unit where
  status := 200
  headers := [("content-type", Utf8.encode Media.json)]
  body := .ofChunks [.data ⟨Utf8.encode "[1,2", [.info "first"]⟩,
    .data ⟨Utf8.encode ",3", [.info "second"]⟩, .failure (.connectionClosed "reset"),
    .data ⟨Utf8.encode "]", [.info "third"]⟩]

/-- A context that can be canceled, but is not. -/
def uncanceled : Context := (Context.background.withCancel .start).1

/-- The world once another context has been canceled. -/
def elsewhereCanceled : Timed Unit :=
  let (_, other, t) := Context.background.withCancel (Context.background.withCancel .start).2.2
  ⟨t.fire other, [], ()⟩

/-- The number that may still go on is not given, and the frame behind the failure is not read. -/
theorem run_take_findAll_cutOff :
    let k : Client Unit Json String :=
      .new "/numbers" (fun _ _ => .done (.ok cutOff)) .identity (.byField "id") .text
    uncanceled.NeverDone elsewhereCanceled.time ∧
      ∃ rest w, Act.run (Entities.take k 5 (k.findAll uncanceled)) elsewhereCanceled =
        ⟨.ok ([.ok (.int 1), .ok (.int 2), .error (.transport (.connectionClosed "reset"))], rest),
          [.debug "Sending GET /numbers", .info "first", .info "second"], w⟩ := by
  intro k
  have hcodec : k.responseCodec cutOff.headers = ⟨Media.json, .json⟩ := responseCodec_eq rfl .json
  have hmapping : k.mappingFor cutOff = .identity := by
    rw [mappingFor, hcodec]
    rfl
  have hmedia : k.codec.mediaType = Media.json := congrArg MediaCodec.mediaType Known.json.lookupOrJson_eq
  have hurl : expandPattern "/numbers" uncanceled = .ok "/numbers" := rfl
  have hbuilt : ∃ q, buildRequest "GET" "/numbers" Media.json [] = .ok q := ⟨_, rfl⟩
  have hopens : k.Opens uncanceled "/numbers" elsewhereCanceled [] cutOff .array elsewhereCanceled := by
    obtain ⟨q, hq⟩ := hbuilt
    exact ⟨rfl, hurl, ⟨q, hmedia ▸ hq, rfl⟩, rfl, by rw [hcodec]; rfl⟩
  have hlive : uncanceled.NeverDone elsewhereCanceled.time := fun _ => rfl
  obtain ⟨-, -, htake⟩ := run_take_findAll (c := uncanceled) hopens hlive (by rw [hmapping]; nofun)
    (.data _ (.data _ (.failed _ _)))
  rw [hmapping] at htake
  exact ⟨hlive, htake 4⟩

end Client

end WebResource
