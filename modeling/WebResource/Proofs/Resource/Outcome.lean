import WebResource.Proofs.Outcome
import WebResource.Proofs.Resource.Confinement

namespace WebResource.Resource

/-!
# Outcomes of serving

What comes of a part of serving a request, once its questions are answered: a result, an error for
the caller or a panic, and the state at the end.
-/

variable {S E I α β : Type}

namespace Serving

variable (answer : (q : Call S E I) → Act S (Call.Answer q))

def outcome (x : Serving S E I α) (s : S) : Except Payload (Except ApiError α) × S :=
  Act.outcome (x.run.interpret answer) s

@[simp] theorem outcome_pure (a : α) (s : S) :
    outcome answer (pure a) s = (.ok (.ok a), s) := rfl

@[simp] theorem outcome_throw (e : ApiError) (s : S) :
    outcome answer (throw e : Serving S E I α) s = (.ok (.error e), s) := rfl

@[simp] theorem outcome_panic (p : Payload) (s : S) :
    outcome answer (panic p : Serving S E I α) s = (.error p, s) := rfl

@[simp] theorem outcome_tell (r : LogRecord) (s : S) :
    outcome answer (tell r : Serving S E I Unit) s = (.ok (.ok ()), s) := rfl

@[simp] theorem outcome_ofExcept (x : Except ApiError α) (s : S) :
    outcome answer (Serving.ofExcept x : Serving S E I α) s = (.ok x, s) := by
  cases x <;> rfl

theorem interpret_ask (q : Call S E I) :
    (ask q).run.interpret answer = (answer q).attempt.bind fun
      | .ok a => .done (.ok a)
      | .error p => .panic p := by
  change Prog.bind _ _ = _
  refine congrArg _ (funext fun a => ?_)
  cases a <;> rfl

@[simp] theorem outcome_ask (q : Call S E I) (s : S) :
    outcome answer (ask q) s =
      ((Act.outcome (answer q) s).1.map .ok, (Act.outcome (answer q) s).2) := by
  rw [outcome, interpret_ask, Act.outcome_bind, Act.outcome_attempt, Act.continueWith_ok]
  cases (Act.outcome (answer q) s).1 <;> rfl

/-- Goes on with a result; an error for the caller and a panic stay. -/
def continueWith (o : Except Payload (Except ApiError α) × S)
    (f : α → S → Except Payload (Except ApiError β) × S) :
    Except Payload (Except ApiError β) × S :=
  match o with
  | (.ok (.ok a), s) => f a s
  | (.ok (.error e), s) => (.ok (.error e), s)
  | (.error p, s) => (.error p, s)

section ContinueWith

variable (s : S) (f : α → S → Except Payload (Except ApiError β) × S)

@[simp] theorem continueWith_ok (a : α) : continueWith (.ok (.ok a), s) f = f a s := rfl

@[simp] theorem continueWith_error (e : ApiError) :
    continueWith (.ok (.error e), s) f = (.ok (.error e), s) := rfl

@[simp] theorem continueWith_panic (p : Payload) :
    continueWith (.error p, s) f = (.error p, s) := rfl

end ContinueWith

theorem interpret_bind (x : Serving S E I α) (f : α → Serving S E I β) :
    (x >>= f).run.interpret answer = (x.run.interpret answer).bind fun
      | .ok a => (f a).run.interpret answer
      | .error e => .done (.error e) := by
  change Prog.interpret answer (Prog.bind x.run _) = _
  rw [Prog.interpret_bind]
  refine congrArg _ (funext fun a => ?_)
  cases a <;> rfl

@[simp] theorem outcome_bind (x : Serving S E I α) (f : α → Serving S E I β) (s : S) :
    outcome answer (x >>= f) s = continueWith (outcome answer x s) fun a => outcome answer (f a) := by
  rw [outcome, interpret_bind, Act.outcome_bind, outcome]
  rcases Act.outcome (x.run.interpret answer) s with ⟨_ | _ | _, s'⟩ <;> rfl

theorem outcome_ask_bind {q : Call S E I} {s s' : S} {a : q.Answer}
    (h : Act.outcome (answer q) s = (.ok a, s')) (f : q.Answer → Serving S E I α) :
    outcome answer (ask q >>= f) s = outcome answer (f a) s' := by
  rw [outcome_bind, outcome_ask, h]
  rfl

end Serving

/-- The response to a request, once its questions are answered: an error is rendered. -/
theorem outcome_serve (r : Resource S E I) (answer : (q : Call S E I) → Act S (Call.Answer q))
    (request : Request) (s : S) :
    let n := MediaCodec.forRequest request.headers r.codecs
    let out := MediaCodec.forResponse request.headers r.codecs n
    Act.outcome ((r.serve request).interpret answer) s =
      Act.continueWith (Serving.outcome answer (r.perform request n out) s) fun
        | .ok response => fun s => (.ok response, s)
        | .error e => Act.outcome ((r.renderError e out request.path).interpret answer) := by
  simp only [serve, Prog.interpret_bind, Act.outcome_bind]
  refine congrArg _ (funext fun a => ?_)
  cases a <;> rfl

/-- The response that an error is rendered as. -/
def renderedError (r : Resource S E I) (e : ApiError) (out : MediaCodec) (instanceUri : String) :
    Response S :=
  match r.errorHandler with
  | some render => render e out instanceUri
  | none => (e.render out instanceUri).2

theorem outcome_renderError_eq (r : Resource S E I) (answer : (q : Call S E I) → Act S (Call.Answer q))
    (e : ApiError) (out : MediaCodec) (instanceUri : String) (s : S) :
    Act.outcome ((r.renderError e out instanceUri).interpret answer) s =
      (.ok (r.renderedError e out instanceUri), s) := by
  cases herror : r.errorHandler with
  | some render =>
      simp only [renderError, renderedError, herror]
      rfl
  | none =>
      simp only [renderError, renderedError, herror, Prog.interpret_logs, Act.outcome_logs]
      rfl

theorem outcome_renderError_of_none {r : Resource S E I} (h : r.errorHandler = none)
    (answer : (q : Call S E I) → Act S (Call.Answer q)) (e : ApiError) (out : MediaCodec)
    (instanceUri : String) (s : S) :
    Act.outcome ((r.renderError e out instanceUri).interpret answer) s =
      (.ok (e.render out instanceUri).2, s) := by
  rw [outcome_renderError_eq, renderedError, h]

theorem outcome_renderError (r : Resource S E I) (answer : (q : Call S E I) → Act S (Call.Answer q))
    (e : ApiError) (out : MediaCodec) (instanceUri : String) (s : S) :
    ∃ response, Act.outcome ((r.renderError e out instanceUri).interpret answer) s =
      (.ok response, s) :=
  ⟨_, outcome_renderError_eq r answer e out instanceUri s⟩

end WebResource.Resource

namespace WebResource.Handler

variable {S : Type} {service : Service S} {request : Request} {s s' : S}

theorem outcome_recovering_ok {response : Response S}
    (h : Act.outcome (service request) s = (.ok response, s')) :
    Act.outcome (recovering service request) s = (.ok response, s') := by
  rw [recovering, Act.outcome_bind, Act.outcome_attempt, h]
  rfl

theorem outcome_recovering_of_panic {p : Payload}
    (h : Act.outcome (service request) s = (.error p, s')) :
    Act.outcome (recovering service request) s =
      (.ok (p.toError.render (.forResponseTo request.headers []) request.path).2, s') := by
  rw [recovering, Act.outcome_bind, Act.outcome_attempt, h]
  exact Act.outcome_logs _ _ s'

theorem outcome_recovering_panic {p : Payload}
    (h : Act.outcome (service request) s = (.error p, s')) :
    ∃ response, Act.outcome (recovering service request) s = (.ok response, s') :=
  ⟨_, outcome_recovering_of_panic h⟩

end WebResource.Handler

namespace WebResource.Resource

variable {S E I : Type} {r : Resource S E I} {routers : NodeId → Service S} {request : Request}
  {s s' : S}

/-- An error that ends the serving of a request is rendered by the resource. -/
theorem outcome_handler_of_error {e : ApiError}
    (h : Serving.outcome (r.answer routers) (r.perform request (.forRequest request.headers r.codecs)
      (.forResponseTo request.headers r.codecs)) s = (.ok (.error e), s')) :
    Act.outcome (r.handler.serve routers request) s =
      (.ok (r.renderedError e (.forResponseTo request.headers r.codecs) request.path), s') := by
  apply Handler.outcome_recovering_ok
  rw [MediaCodec.forResponseTo] at h
  rw [service, outcome_serve, h]
  exact outcome_renderError_eq r (r.answer routers) e _ request.path s'

/-- A panic is rendered outside of the resource. -/
theorem outcome_handler_of_panic {p : Payload}
    (h : Serving.outcome (r.answer routers) (r.perform request (.forRequest request.headers r.codecs)
      (.forResponseTo request.headers r.codecs)) s = (.error p, s')) :
    Act.outcome (r.handler.serve routers request) s =
      (.ok (p.toError.render (.forResponseTo request.headers []) request.path).2, s') := by
  apply Handler.outcome_recovering_of_panic
  rw [MediaCodec.forResponseTo] at h
  rw [service, outcome_serve, h]
  rfl

end WebResource.Resource
