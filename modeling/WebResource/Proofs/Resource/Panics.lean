import WebResource.Proofs.Message.Response
import WebResource.Proofs.Problem
import WebResource.Proofs.Resource.Outcome
import WebResource.Sample.Codecs

namespace WebResource

/-!
# Panics of hooks

A hook may refuse a request with an error, or it may panic with the same error. An error is rendered
by the resource, with its own codecs and its own error handler. A panic is rendered outside of it, as a
problem document in a built-in codec.
-/

namespace ProblemDetails

/-! ## Two spellings of a problem document -/

theorem render_obj (k : String) (v : Json) (fs : Json.Fields) :
    ∃ rest, (Json.obj ((k, v) :: fs)).render = 0x7B :: (Json.renderString k ++ rest) := by
  cases fs with
  | nil => exact ⟨_, rfl⟩
  | cons f fs => exact ⟨_, rfl⟩

/-- The second letter after the opening brace tells the two spellings apart. -/
theorem render_obj_ne {k k' : String} (v v' : Json) (fs fs' : Json.Fields)
    (h : (Json.renderString k)[1]? ≠ (Json.renderString k')[1]?)
    (hk : 1 < (Json.renderString k).length) (hk' : 1 < (Json.renderString k').length) :
    (Json.obj ((k, v) :: fs)).render ≠ (Json.obj ((k', v') :: fs')).render := by
  obtain ⟨rest, hrest⟩ := render_obj k v fs
  obtain ⟨rest', hrest'⟩ := render_obj k' v' fs'
  intro heq
  rw [hrest, hrest'] at heq
  have hsecond := congrArg (fun bs : Bytes => bs.tail[1]?) heq
  simp only [List.tail_cons] at hsecond
  rw [List.getElem?_append_left hk, List.getElem?_append_left hk'] at hsecond
  exact h hsecond

/-- The fields as declared begin with the type, which comes last in the order of names. -/
theorem render_declared_ne (p : ProblemDetails) :
    (Document.declared p).render ≠ (Document.toJson p).render := by
  rw [toJson_eq, fields]
  change (Json.obj (("type", _) :: _)).render ≠ _
  rcases unlessEmpty_cases p.detail with ⟨hd, -⟩ | hd <;>
    rcases unlessEmpty_cases p.instanceUri with ⟨hi, -⟩ | hi <;> rw [hd, hi]
  · exact render_obj_ne _ _ _ _ (by decide) (by decide) (by decide)
  · exact render_obj_ne _ _ _ _ (by decide) (by decide) (by decide)
  · exact render_obj_ne _ _ _ _ (by decide) (by decide) (by decide)
  · exact render_obj_ne _ _ _ _ (by decide) (by decide) (by decide)

end ProblemDetails

namespace ApiError

variable {S : Type}

/-- Two codecs write a document in the same bytes and call it by the same media type. -/
def WrittenAlike (document : Json) (n n' : MediaCodec) : Prop :=
  ∃ body, n.codec.marshal document = .ok body ∧ n'.codec.marshal document = .ok body ∧
    problemMedia n.mediaType = problemMedia n'.mediaType

/-- What is called a problem document in JSON is written as JSON. -/
theorem marshal_of_problemJson {n : MediaCodec} (hn : n.IsKnown)
    (hmedia : problemMedia n.mediaType = Media.problemJson) (document : Json) :
    n.codec.marshal document = .ok document.render := by
  obtain ⟨mediaType, codec⟩ := n
  change Known mediaType codec at hn
  cases hn with
  | json => rfl
  | problemJson => rfl
  | ndjson => exact absurd hmedia (by decide)
  | streamJson => exact absurd hmedia (by decide)
  | jsonStream => exact absurd hmedia (by decide)
  | form => exact absurd hmedia (by decide)

/-- An error looks the same in a codec and in a built-in one exactly if the problem document does. Where
a codec cannot write the document, what stands in for it looks like no built-in one. -/
theorem reply_render_eq_iff (e : ApiError) (n : MediaCodec) {known : MediaCodec}
    (hknown : known.IsKnown) (instanceUri : String) :
    ((e.render n instanceUri).2 : Response S).reply =
        ((e.render known instanceUri).2 : Response S).reply ↔
      WrittenAlike (Document.toJson (e.toProblem instanceUri)) n known := by
  obtain ⟨body, -, hbody, -, -⟩ :=
    ProblemDetails.carries (fits_toProblem e instanceUri) hknown
  have hbuiltin : ((e.render known instanceUri).2 : Response S) =
      .ofBytes e.kind.status (problemMedia known.mediaType) body := by
    simp only [render, hbody]
  rw [hbuiltin]
  cases hown : n.codec.marshal (Document.toJson (e.toProblem instanceUri)) with
  | ok written =>
      simp only [render, hown, Response.reply_ofBytes_eq_iff, true_and, WrittenAlike, hbody,
        Except.ok.injEq]
      constructor
      · rintro ⟨hmedia, rfl⟩
        exact ⟨_, rfl, rfl, hmedia⟩
      · rintro ⟨_, rfl, rfl, hmedia⟩
        exact ⟨hmedia, rfl⟩
  | error x =>
      -- What stands in for the document has its fields in another order than a built-in codec.
      simp only [render, hown]
      refine iff_of_false (fun hsame => ?_) ?_
      · obtain ⟨-, hmedia, hdeclared⟩ := Response.reply_ofBytes_eq_iff.mp hsame
        rw [marshal_of_problemJson hknown hmedia.symm] at hbody
        exact ProblemDetails.render_declared_ne _ (hdeclared.trans (Except.ok.inj hbody).symm)
      · rintro ⟨_, hwritten, -⟩
        rw [hown] at hwritten
        cases hwritten

end ApiError

namespace Resource

variable {S E I : Type} {r : Resource S E I} {routers : NodeId → Service S} {request : Request}
  {x : Act S (Except ApiError Context)} {e : ApiError} {s s' : S}

/-- The resource with other hooks. -/
def withHooks (r : Resource S E I) (collection : Option (Context → Act S (Except ApiError Context)))
    (resource : Option (Context → I → Act S (Except ApiError Context))) : Resource S E I :=
  { r with collectionHook := collection, resourceHook := resource }

/-- What the hook of the resource does for a request, if it is asked. -/
def hook (r : Resource S E I) (request : Request) : Option (Act S (Except ApiError Context)) :=
  match request.routing.shift with
  | (none, _) => r.collectionHook.map fun f => f (context request)
  | (some segment, _) =>
    let segment := Percent.decodeSegment segment
    match r.ids.parse segment with
    | .ok i => r.resourceHook.map fun f => f (r.resourceContext request segment i) i
    | .error _ => none

/-- The response to a request that fails with an error. -/
def errorResponse (r : Resource S E I) (request : Request) (e : ApiError) : Response S :=
  r.renderedError e (.forResponseTo request.headers r.codecs) request.path

/-! ## The hook comes first -/

theorem Serving.outcome_bind_ofExcept {α β : Type} {answer : (q : Call S E I) → Act S (Call.Answer q)}
    {p : Serving S E I (Except ApiError α)} {o : Except Payload (Except ApiError α) × S}
    (h : Serving.outcome answer p s = (o.1.map .ok, o.2)) (f : α → Serving S E I β) :
    Serving.outcome answer (p >>= fun a => Serving.ofExcept a >>= f) s =
      Serving.continueWith o fun a => Serving.outcome answer (f a) := by
  rw [Serving.outcome_bind, h]
  obtain ⟨_ | _ | _, s'⟩ := o <;> rfl

/-- Serving goes on with what the hook gives. -/
theorem outcome_perform_of_hook (routers : NodeId → Service S) (h : r.hook request = some x)
    (n out : MediaCodec) (s : S) :
    ∃ rest : Context → S → Except Payload (Except ApiError (Response S)) × S,
      Serving.outcome (r.answer routers) (r.perform request n out) s =
        Serving.continueWith (Act.outcome x s) rest := by
  rcases hshift : request.routing.shift with ⟨_ | segment, cursor⟩
  · simp only [hook, hshift] at h
    obtain ⟨f, hhook, rfl⟩ := Option.map_eq_some_iff.mp h
    have hanswer : r.answer routers (.prepareCollection (context request)) = f (context request) := by
      simp only [answer, hhook]
    simp only [perform, hshift]
    refine ⟨_, Serving.outcome_bind_ofExcept (p := Serving.ask (.prepareCollection (context request)))
      ?_ _⟩
    rw [← hanswer]
    exact Serving.outcome_ask _ _ s
  · simp only [hook, hshift] at h
    cases hid : r.ids.parse (Percent.decodeSegment segment) with
    | error x => simp [hid] at h
    | ok i =>
        simp only [hid] at h
        obtain ⟨f, hhook, rfl⟩ := Option.map_eq_some_iff.mp h
        let c := r.resourceContext request (Percent.decodeSegment segment) i
        have hanswer : r.answer routers (.prepareResource c i) = f c i := by
          simp only [answer, hhook]
        simp only [perform, hshift, serveResource, hid]
        refine ⟨_, Serving.outcome_bind_ofExcept (p := Serving.ask (.prepareResource c i)) ?_ _⟩
        rw [← hanswer]
        exact Serving.outcome_ask _ _ s

theorem outcome_serve_of_hook_error (h : r.hook request = some x)
    (hx : Act.outcome x s = (.ok (.error e), s')) :
    Act.outcome (r.handler.serve routers request) s = (.ok (r.errorResponse request e), s') := by
  obtain ⟨rest, hperform⟩ := outcome_perform_of_hook routers h
    (MediaCodec.forRequest request.headers r.codecs)
    (MediaCodec.forResponseTo request.headers r.codecs) s
  apply outcome_handler_of_error
  rw [hperform, hx]
  rfl

theorem outcome_serve_of_hook_panic (h : r.hook request = some x)
    (hx : Act.outcome x s = (.error (.error e), s')) :
    Act.outcome (r.handler.serve routers request) s =
      (.ok (e.render (.forResponseTo request.headers []) request.path).2, s') := by
  obtain ⟨rest, hperform⟩ := outcome_perform_of_hook routers h
    (MediaCodec.forRequest request.headers r.codecs)
    (MediaCodec.forResponseTo request.headers r.codecs) s
  apply outcome_handler_of_panic (p := .error e)
  rw [hperform, hx]
  rfl

/-! ## Where a panic and an error look the same -/

/-- The resource renders an error like the built-in codecs do. -/
def RendersPlainly (r : Resource S E I) (request : Request) (e : ApiError) : Prop :=
  let plain := MediaCodec.forResponseTo request.headers []
  match r.errorHandler with
  | some _ => (r.errorResponse request e).reply =
      ((e.render plain request.path).2 : Response S).reply
  | none => ApiError.WrittenAlike (Document.toJson (e.toProblem request.path))
      (.forResponseTo request.headers r.codecs) plain

theorem reply_errorResponse_eq_iff (r : Resource S E I) (request : Request) (e : ApiError) :
    (r.errorResponse request e).reply =
        ((e.render (.forResponseTo request.headers []) request.path).2 : Response S).reply ↔
      r.RendersPlainly request e := by
  rw [RendersPlainly]
  cases herror : r.errorHandler with
  | some render => exact Iff.rfl
  | none =>
      simp only [errorResponse, renderedError, herror]
      exact e.reply_render_eq_iff _ (MediaCodec.isKnown_forResponseTo _) _

/-- Without an error handler, codecs of one's own for media types that the request does not name make
no difference. -/
theorem rendersPlainly_of_foreign (herror : r.errorHandler = none)
    (hforeign : MediaCodec.Foreign r.codecs request.headers) (e : ApiError) :
    r.RendersPlainly request e := by
  rw [← reply_errorResponse_eq_iff, errorResponse, renderedError, herror, hforeign.forResponseTo_eq]

/-- A hook that panics with an error is answered like one that returns the error exactly where the
resource renders the error like the built-in codecs do. -/
theorem reply_hook_panic_iff_rendersPlainly (r : Resource S E I) (routers : NodeId → Service S)
    (request : Request) (e : ApiError)
    (collection : Option (Context → Act S (Except ApiError Context)))
    (resource : Option (Context → I → Act S (Except ApiError Context)))
    {returning panicking : Act S (Except ApiError Context)} {s s₁ t t₁ : S}
    (hreturning : r.hook request = some returning)
    (hpanicking : (r.withHooks collection resource).hook request = some panicking)
    (hreturns : Act.outcome returning s = (.ok (.error e), s₁))
    (hpanics : Act.outcome panicking t = (.error (.error e), t₁)) :
    ∃ returned panicked : Response S,
      Act.outcome (r.handler.serve routers request) s = (.ok returned, s₁) ∧
      Act.outcome ((r.withHooks collection resource).handler.serve routers request) t =
        (.ok panicked, t₁) ∧
      (returned.reply = panicked.reply ↔ r.RendersPlainly request e) ∧
      (r.errorHandler = none → MediaCodec.Foreign r.codecs request.headers →
        returned.reply = panicked.reply) := by
  have hiff := r.reply_errorResponse_eq_iff request e
  exact ⟨_, _, outcome_serve_of_hook_error hreturning hreturns,
    outcome_serve_of_hook_panic hpanicking hpanics, hiff,
    fun herror hforeign => hiff.mpr (rendersPlainly_of_foreign herror hforeign e)⟩

/-- A resource with its own codec for JSON and a hook that refuses every request. -/
def guarded (refuse : Act Unit (Except ApiError Context)) : Resource Unit Json String :=
  { Resource.plain .text with
    codecs := [(Media.json, Sample.Codecs.constant "own")]
    collectionHook := some fun _ => refuse }

def guardedRequest : Request :=
  ⟨"GET", ⟨none, none, "/", none⟩, [("accept", Utf8.encode Media.json)], [], .empty⟩

theorem not_rendersPlainly_guarded (refuse : Act Unit (Except ApiError Context)) :
    ¬(guarded refuse).RendersPlainly guardedRequest ⟨.forbidden, "no"⟩ := by
  have hown : ((guarded refuse).errorResponse guardedRequest ⟨.forbidden, "no"⟩).bytes =
      Utf8.encode "own" := by
    change ((ApiError.render ⟨.forbidden, "no"⟩ (.forResponseTo guardedRequest.headers
      [(Media.json, Sample.Codecs.constant "own")]) guardedRequest.path).2 : Response Unit).bytes = _
    decide +kernel
  have hbuiltin : ((ApiError.render ⟨.forbidden, "no"⟩ (.forResponseTo guardedRequest.headers [])
      guardedRequest.path).2 : Response Unit).bytes ≠ Utf8.encode "own" := by
    decide +kernel
  rw [← reply_errorResponse_eq_iff]
  intro hsame
  exact hbuiltin ((congrArg (fun reply => reply.2.2) hsame).symm.trans hown)

/-- The error is written by the codec of the resource, the panic is not. -/
theorem reply_hook_panic_guarded :
    let denied : ApiError := ⟨.forbidden, "no"⟩
    ∃ returned panicked : Response Unit,
      Act.outcome ((guarded (.done (.error denied))).handler.serve (fun _ _ => .done (.plain 404))
        guardedRequest) () = (.ok returned, ()) ∧
      Act.outcome ((guarded (.panic (.error denied))).handler.serve
        (fun _ _ => .done (.plain 404)) guardedRequest) () = (.ok panicked, ()) ∧
      returned.reply ≠ panicked.reply := by
  intro denied
  obtain ⟨returned, panicked, hreturned, hpanicked, hiff, -⟩ :=
    reply_hook_panic_iff_rendersPlainly (guarded (.done (.error denied)))
      (fun _ _ => .done (.plain 404)) guardedRequest denied (some fun _ => .panic (.error denied))
      none (s := ()) (t := ()) rfl rfl rfl rfl
  exact ⟨returned, panicked, hreturned, hpanicked,
    fun hsame => not_rendersPlainly_guarded _ (hiff.mp hsame)⟩

end Resource

end WebResource
