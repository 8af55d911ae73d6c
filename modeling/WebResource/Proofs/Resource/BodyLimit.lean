import WebResource.Proofs.Resource.Gating
import WebResource.Proofs.Resource.Panics

namespace WebResource.Resource

/-!
# Limits on what is stored

A request that stores an entity is refused for its size exactly if its body exceeds the limit of the
resource, and before any operation runs. What is done with a body that is within the limit depends on
its bytes only.
-/

variable {S E I α β : Type}

/-! ## Errors other than too large a body -/

namespace Serving

variable {answer : (q : Call S E I) → Act S (Call.Answer q)}

/-- A part of serving that does not fail because something is too large. -/
def Spares (answer : (q : Call S E I) → Act S (Call.Answer q)) (x : Serving S E I α) : Prop :=
  ∀ s e s', outcome answer x s = (.ok (.error e), s') → e.kind ≠ .requestEntityTooLarge

namespace Spares

theorem pure (a : α) : Spares answer (Pure.pure a) := by
  intro s e s' h
  cases h

theorem panic (p : Payload) : Spares answer (Serving.panic p : Serving S E I α) := by
  intro s e s' h
  cases h

theorem throw {e : ApiError} (h : e.kind ≠ .requestEntityTooLarge) :
    Spares answer (MonadExcept.throw e : Serving S E I α) := by
  intro s e' s' hthrown
  cases hthrown
  exact h

theorem tell (r : LogRecord) : Spares answer (Serving.tell r) := by
  intro s e s' h
  cases h

theorem ask (q : Call S E I) : Spares answer (Serving.ask q) := by
  intro s e s' h
  rw [outcome_ask] at h
  cases hanswer : (Act.outcome (answer q) s).1 <;> rw [hanswer] at h <;> cases h

theorem bind {x : Serving S E I α} {f : α → Serving S E I β} (hx : Spares answer x)
    (hf : ∀ a, Spares answer (f a)) : Spares answer (x >>= f) := by
  intro s e s' h
  rw [outcome_bind] at h
  rcases hout : outcome answer x s with ⟨p | e' | a, t⟩ <;> rw [hout] at h
  · cases h
  · cases h
    exact hx s e s' hout
  · exact hf a t e s' h

theorem ofExcept {x : Except ApiError α} (h : ∀ e, x = .error e → e.kind ≠ .requestEntityTooLarge) :
    Spares answer (Serving.ofExcept x) := by
  cases x with
  | ok a => exact pure a
  | error e => exact throw (h e rfl)

theorem mapped {kind : ErrorKind} (h : kind ≠ .requestEntityTooLarge) (x : Mapped α) :
    Spares answer (Serving.mapped (⟨kind, ·⟩) x) := by
  cases x with
  | ok a => exact pure a
  | refused why => exact throw h
  | panicked p => exact panic p

theorem persisted (x : Except StorageError α) : Spares answer (Serving.persisted x) := by
  cases x with
  | ok a => exact pure a
  | error e =>
      have hkind : e.toApi.kind ≠ .requestEntityTooLarge := by
        obtain ⟨kind, message⟩ := e
        cases kind <;> exact nofun
      unfold Serving.persisted
      simp only
      split
      · exact bind (tell _) fun _ => throw hkind
      · exact throw hkind

theorem persistedFor (description : String) (x : Except StorageError α) :
    Spares answer (Serving.persistedFor description x) := by
  cases x with
  | ok a => exact pure a
  | error e =>
      unfold Serving.persistedFor
      simp only
      split
      · exact throw nofun
      · exact persisted _

end Spares

theorem ofExcept_bind (x : Except ApiError α) (f : α → Except ApiError β) :
    (Serving.ofExcept (x >>= f) : Serving S E I β) =
      Serving.ofExcept x >>= fun a => Serving.ofExcept (f a) := by
  cases x <;> rfl

end Serving

open Serving

/-! ## After the body has been read -/

/-- The document that a codec finds in a body. -/
def decoded (n : MediaCodec) (body : Bytes) : Except ApiError Json :=
  match n.codec.unmarshal body with
  | .ok document => .ok document
  | .error e => .error ⟨.invalidRequestBody, e.message⟩

theorem readDocument_eq (limit : Nat) (request : Request) (n : MediaCodec) :
    readDocument limit request n = readBody limit request >>= decoded n := by
  rw [readDocument]
  cases readBody limit request <;> rfl

section Received

variable (r : Resource S E I) (i : I) (n out : MediaCodec) (c : Context) (request : Request)

/-- Creates an entity from a body. -/
def createReceived (body : Bytes) : Serving S E I (Response S) := do
  let document ← Serving.ofExcept (decoded n body)
  let e ← r.ofDocument c document n
  let created ← Serving.persisted (← Serving.ask (.create c e))
  r.entityResponse c 201 created out

/-- Replaces an entity by that of a body. -/
def updateReceived (body : Bytes) : Serving S E I (Response S) := do
  let document ← Serving.ofExcept (decoded n body)
  r.requireExisting c i
  let e ← r.ofDocument c document n
  match r.idLens.set i e with
  | .error x => throw ⟨.internalServerError, s!"Cannot set ID: {x.message}"⟩
  | .ok e =>
    Serving.persistedFor (r.idText i) (← Serving.ask (.update c e))
    return noContent out

variable {r}

theorem create_of_offered (h : r.operations.create.isSome) : r.create c request n out =
    (Serving.ofExcept (readBody r.bodyReadLimit request) >>= r.createReceived n out c) := by
  unfold create
  rw [if_neg (by simpa [Option.isSome_iff_ne_none] using h), readDocument_eq, ofExcept_bind, bind_assoc]
  rfl

theorem update_of_offered (h : r.operations.update.isSome) : r.update c i request n out =
    (Serving.ofExcept (readBody r.bodyReadLimit request) >>= r.updateReceived i n out c) := by
  unfold update
  rw [if_neg (by simpa [Option.isSome_iff_ne_none] using h), readDocument_eq, ofExcept_bind, bind_assoc]
  rfl

end Received

section Spares

variable (r : Resource S E I) {answer : (q : Call S E I) → Act S (Call.Answer q)} (i : I)
  (n out : MediaCodec) (c : Context) (body : Bytes)

theorem decoded_spares : Spares answer (Serving.ofExcept (decoded n body) : Serving S E I Json) := by
  apply Spares.ofExcept
  intro e he
  rw [decoded] at he
  split at he
  · cases he
  · cases he
    exact nofun

theorem ofDocument_spares (document : Json) : Spares answer (r.ofDocument c document n) :=
  Spares.mapped (by decide) _

theorem entityResponse_spares (status : Nat) (e : E) :
    Spares answer (r.entityResponse c status e out) := by
  refine Spares.bind (Spares.mapped (by decide) _) fun document => ?_
  split
  · exact Spares.pure _
  · exact Spares.throw nofun

theorem requireExisting_spares : Spares answer (r.requireExisting c i) := by
  unfold requireExisting
  split
  · refine Spares.bind (Spares.ask _) fun found => Spares.bind (Spares.persisted found) fun e => ?_
    split
    · exact Spares.pure _
    · exact Spares.throw nofun
  · exact Spares.pure _

theorem createReceived_spares : Spares answer (r.createReceived n out c body) :=
  Spares.bind (decoded_spares n body) fun document =>
    Spares.bind (r.ofDocument_spares n c document) fun _ =>
      Spares.bind (Spares.ask _) fun created => Spares.bind (Spares.persisted created) fun e =>
        r.entityResponse_spares out c 201 e

theorem updateReceived_spares : Spares answer (r.updateReceived i n out c body) := by
  refine Spares.bind (decoded_spares n body) fun document =>
    Spares.bind (r.requireExisting_spares i c) fun _ =>
      Spares.bind (r.ofDocument_spares n c document) fun e => ?_
  split
  · exact Spares.throw nofun
  · exact Spares.bind (Spares.ask _) fun updated => Spares.bind (Spares.persistedFor _ updated) fun _ =>
      Spares.pure _

end Spares

/-! ## Requests that store something -/

/-- A request to create or to replace an entity, where that is offered: what prepares its context,
and what is done with its body. -/
inductive Stores (r : Resource S E I) (request : Request) :
    Serving S E I Context →
      (MediaCodec → MediaCodec → Context → Bytes → Serving S E I (Response S)) → Prop where
  | create {cursor : PathCursor} (routed : request.routing.shift = (none, cursor))
      (posted : request.method = "POST") (offered : r.operations.create.isSome) :
      Stores r request (Serving.ask (.prepareCollection (context request)) >>= Serving.ofExcept)
        r.createReceived
  | update {raw : String} {cursor : PathCursor} {i : I}
      (routed : request.routing.shift = (some raw, cursor)) (last : cursor.isExhausted = true)
      (replaced : request.method = "PUT" ∨ request.method = "PATCH")
      (parsed : r.ids.parse (Percent.decodeSegment raw) = .ok i)
      (offered : r.operations.update.isSome) :
      Stores r request
        (Serving.ask (.prepareResource (r.resourceContext request (Percent.decodeSegment raw) i) i) >>=
          Serving.ofExcept)
        (r.updateReceived i)

namespace Stores

variable {r : Resource S E I} {request : Request} {prepare : Serving S E I Context}
  {store : MediaCodec → MediaCodec → Context → Bytes → Serving S E I (Response S)}
  {c : Context} {s s' : S}

/-- The body is read after the context has been prepared, and before anything is done with it. -/
theorem perform_eq (h : r.Stores request prepare store) (n out : MediaCodec) :
    r.perform request n out =
      (prepare >>= fun c => Serving.ofExcept (readBody r.bodyReadLimit request) >>= store n out c) := by
  cases h with
  | create routed posted offered =>
      simp only [perform, routed, serveCollection, posted, if_pos, bind_assoc,
        create_of_offered n out _ request offered]
  | update routed last replaced parsed offered =>
      have hget : request.method ≠ "GET" := by rcases replaced with h | h <;> rw [h] <;> decide
      simp only [perform, routed, serveResource, parsed, last, if_pos, if_neg hget, if_pos replaced,
        bind_assoc, update_of_offered _ n out _ request offered]

theorem spares (h : r.Stores request prepare store)
    {answer : (q : Call S E I) → Act S (Call.Answer q)} (n out : MediaCodec) (c : Context)
    (body : Bytes) : Spares answer (store n out c body) := by
  cases h with
  | create => exact r.createReceived_spares n out c body
  | update => exact r.updateReceived_spares _ n out c body

theorem prepare_asks (h : r.Stores request prepare store) :
    Asks (fun q => q.operates = false) prepare := by
  cases h with
  | create => exact Asks.bind (Asks.ask rfl) fun _ => Asks.ofExcept _
  | update => exact Asks.bind (Asks.ask rfl) fun _ => Asks.ofExcept _

theorem withChunks (h : r.Stores request prepare store) (chunks : List (Except String Bytes)) :
    r.Stores { request with chunks } prepare store := by
  cases h with
  | create routed posted offered => exact .create routed posted offered
  | update routed last replaced parsed offered => exact .update routed last replaced parsed offered

theorem outcome_perform (h : r.Stores request prepare store)
    {answer : (q : Call S E I) → Act S (Call.Answer q)}
    (hprepared : Serving.outcome answer prepare s = (.ok (.ok c), s')) (n out : MediaCodec) :
    Serving.outcome answer (r.perform request n out) s =
      Serving.continueWith (.ok (readBody r.bodyReadLimit request), s') fun body =>
        Serving.outcome answer (store n out c body) := by
  rw [h.perform_eq, Serving.outcome_bind, hprepared, Serving.continueWith_ok, Serving.outcome_bind,
    Serving.outcome_ofExcept]

theorem outcome_perform_of_error (h : r.Stores request prepare store)
    {answer : (q : Call S E I) → Act S (Call.Answer q)}
    (hprepared : Serving.outcome answer prepare s = (.ok (.ok c), s')) {e : ApiError}
    (hbody : readBody r.bodyReadLimit request = .error e) (n out : MediaCodec) :
    Serving.outcome answer (r.perform request n out) s = (.ok (.error e), s') := by
  rw [h.outcome_perform hprepared, hbody, Serving.continueWith_error]

theorem outcome_perform_of_pieces (h : r.Stores request prepare store)
    {answer : (q : Call S E I) → Act S (Call.Answer q)}
    (hprepared : Serving.outcome answer prepare s = (.ok (.ok c), s')) {pieces : List Bytes}
    (hchunks : request.chunks = pieces.map .ok) (hsmall : ¬Exceeds r.bodyReadLimit request)
    (n out : MediaCodec) :
    Serving.outcome answer (r.perform request n out) s =
      Serving.outcome answer (store n out c pieces.flatten) s' := by
  rw [h.outcome_perform hprepared, readBody_of_pieces hchunks hsmall, Serving.continueWith_ok]

/-- No other error than that of its body is about the size of a request. -/
theorem tooLarge_iff (h : r.Stores request prepare store)
    {answer : (q : Call S E I) → Act S (Call.Answer q)}
    (hprepared : Serving.outcome answer prepare s = (.ok (.ok c), s')) (n out : MediaCodec) :
    (∃ e t, Serving.outcome answer (r.perform request n out) s = (.ok (.error e), t) ∧
        e.kind = .requestEntityTooLarge) ↔ Exceeds r.bodyReadLimit request := by
  constructor
  · rintro ⟨e, t, hthrown, hkind⟩
    by_contra hsmall
    cases hwhy : failure? request.chunks with
    | some why =>
        rw [h.outcome_perform_of_error hprepared (readBody_of_failure hwhy hsmall)] at hthrown
        cases hthrown
        cases hkind
    | none =>
        obtain ⟨pieces, hchunks⟩ := failure?_eq_none_iff.mp hwhy
        rw [h.outcome_perform_of_pieces hprepared hchunks hsmall] at hthrown
        exact h.spares n out c pieces.flatten s' e t hthrown hkind
  · intro hlarge
    exact ⟨_, _, h.outcome_perform_of_error hprepared (readBody_of_exceeds hlarge) n out, rfl⟩

/-- A body that cannot be read is not stored. -/
theorem serve_asks_of_error (h : r.Stores request prepare store) {e : ApiError}
    (hbody : readBody r.bodyReadLimit request = .error e) :
    Prog.Asks (fun q => q.operates = false) (r.serve request) := by
  apply serve_asks
  intro n out
  rw [h.perform_eq, hbody]
  exact h.prepare_asks.bind fun _ => Asks.throw e

theorem serve_asks_of_unread (h : r.Stores request prepare store)
    (hunread : Exceeds r.bodyReadLimit request ∨ (failure? request.chunks).isSome) :
    Prog.Asks (fun q => q.operates = false) (r.serve request) := by
  by_cases hlarge : Exceeds r.bodyReadLimit request
  · exact h.serve_asks_of_error (readBody_of_exceeds hlarge)
  · obtain ⟨why, hwhy⟩ := Option.isSome_iff_exists.mp (hunread.resolve_left hlarge)
    exact h.serve_asks_of_error (readBody_of_failure hwhy hlarge)

/-- Requests with the same bytes are served alike, however the bytes are cut into chunks. -/
theorem serve_withChunks (h : r.Stores request prepare store) {chunks : List (Except String Bytes)}
    (harrived : arrived chunks = arrived request.chunks)
    (hfailure : failure? chunks = failure? request.chunks) :
    r.serve { request with chunks } = r.serve request := by
  have hbody : readBody r.bodyReadLimit { request with chunks } = readBody r.bodyReadLimit request :=
    readBody_congr rfl harrived hfailure
  have hperform (n out : MediaCodec) :
      r.perform { request with chunks } n out = r.perform request n out := by
    rw [h.perform_eq, (h.withChunks chunks).perform_eq, hbody]
  simp only [serve, hperform]
  rfl

end Stores

section Limit

variable {r : Resource S E I} {request : Request} {prepare : Serving S E I Context}
  {store : MediaCodec → MediaCodec → Context → Bytes → Serving S E I (Response S)} {c : Context}
  {s s' : S}

/-- A request that stores an entity, and that its hook lets pass, fails because of its size exactly if
its body exceeds the limit; with another error if its body breaks off before that; and else goes on with
all bytes of its body. If it fails with either error, it has asked for no operation. Bodies with the
same bytes are served alike. -/
theorem serve_bodyLimit (routers : NodeId → Service S) (h : r.Stores request prepare store)
    (hprepared : Serving.outcome (r.answer routers) prepare s = (.ok (.ok c), s')) :
    let n := MediaCodec.forRequest request.headers r.codecs
    let out := MediaCodec.forResponseTo request.headers r.codecs
    let performed := Serving.outcome (r.answer routers) (r.perform request n out) s
    let served := Act.outcome (r.handler.serve routers request) s
    ((∃ e t, performed = (.ok (.error e), t) ∧ e.kind = .requestEntityTooLarge) ↔
        Exceeds r.bodyReadLimit request) ∧
      (Exceeds r.bodyReadLimit request →
        served = (.ok (r.errorResponse request (tooLarge r.bodyReadLimit)), s')) ∧
      (∀ why, failure? request.chunks = some why → ¬Exceeds r.bodyReadLimit request →
        served = (.ok (r.errorResponse request
          ⟨.invalidRequestBody, s!"Cannot read body: {why}"⟩), s')) ∧
      (∀ pieces : List Bytes, request.chunks = pieces.map .ok → ¬Exceeds r.bodyReadLimit request →
        performed = Serving.outcome (r.answer routers) (store n out c pieces.flatten) s') ∧
      (Exceeds r.bodyReadLimit request ∨ (failure? request.chunks).isSome →
        ∀ calls, Prog.Trace (r.Answers routers) (r.serve request) calls →
          ∀ e ∈ calls, e.question.operates = false) ∧
      ∀ chunks, arrived chunks = arrived request.chunks → failure? chunks = failure? request.chunks →
        r.handler.serve routers { request with chunks } = r.handler.serve routers request := by
  intro n out performed served
  refine ⟨h.tooLarge_iff hprepared n out, fun hlarge => ?_, fun why hwhy hsmall => ?_,
    fun pieces hchunks hsmall => ?_, fun hunread calls hcalls => ?_, fun chunks harrived hfailure => ?_⟩
  · exact outcome_handler_of_error
      (h.outcome_perform_of_error hprepared (readBody_of_exceeds hlarge) n out)
  · exact outcome_handler_of_error
      (h.outcome_perform_of_error hprepared (readBody_of_failure hwhy hsmall) n out)
  · exact h.outcome_perform_of_pieces hprepared hchunks hsmall n out
  · exact hcalls.forall_of_asks (h.serve_asks_of_unread hunread)
  · simp only [handler, Handler.recovering, service, h.serve_withChunks harrived hfailure]
    rfl

end Limit

/-- A resource that reads bodies of one byte. -/
def tight : Resource Unit Json String := { owned with bodyReadLimit := 1 }

/-- Two chunks of one byte each are too much, and the entity is not replaced. -/
theorem serve_bodyLimit_replacing :
    let given := tight.resourceContext replacing (Percent.decodeSegment "a") "a"
    let prepare : Serving Unit Json String Context :=
      Serving.ask (.prepareResource given "a") >>= Serving.ofExcept
    (∃ c, Serving.outcome (tight.answer fun _ _ => .panic .other) prepare () = (.ok (.ok c), ())) ∧
      Exceeds tight.bodyReadLimit replacing ∧
      Act.outcome (tight.handler.serve (fun _ _ => .panic .other) replacing) () =
        (.ok (tight.errorResponse replacing (tooLarge 1)), ()) ∧
      ∀ calls, Prog.Trace (tight.Answers fun _ _ => .panic .other) (tight.serve replacing) calls →
        ∀ e ∈ calls, e.question.operates = false := by
  intro given prepare
  have hstores : tight.Stores replacing prepare (tight.updateReceived "a") :=
    .update rfl rfl (Or.inl rfl) rfl rfl
  have hlarge : Exceeds tight.bodyReadLimit replacing := Or.inr (by decide)
  obtain ⟨-, hrefused, -, -, hasked, -⟩ :=
    serve_bodyLimit (fun _ _ => .panic .other) hstores (s := ()) rfl
  exact ⟨⟨_, rfl⟩, hlarge, hrefused hlarge, hasked (Or.inl hlarge)⟩

end WebResource.Resource
