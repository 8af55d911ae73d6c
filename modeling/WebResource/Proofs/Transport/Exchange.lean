import WebResource.Proofs.Negotiation
import WebResource.Proofs.Resource.Memory
import WebResource.Proofs.Router.Dispatch
import WebResource.Transport.Basic

namespace WebResource

/-!
# Requests to a mounted resource

A request that a transport carries to the router of a resource comes back with the response that the
resource gives, and with what the operation has left behind.
-/

namespace Resource

variable {E I : Type} [DecidableEq I] [Document E] [Identifier I] {k : Identity E I}
  {ids : IdFormat I} {limit : Nat} {routers : NodeId → Service (Memory E)} {m m' : Memory E}
  {request : Request} {n out : MediaCodec} {result : Except ApiError (Response (Memory E))}

/-! ## Requests for the collection and for an entity -/

section Collection

variable (hleft : request.routing.left = [])

include hleft

variable (k ids limit routers m n out)

theorem outcome_perform_collection :
    let r : Resource (Memory E) E I := stored k ids limit
    Serving.outcome (r.answer routers) (r.perform request n out) m =
      Serving.outcome (r.answer routers)
        (if request.method = "POST" then r.create (context request) request n out
          else if request.method = "GET" then r.index (context request) out
          else if request.method = "DELETE" then r.destroyAll (context request) out
          else throw (notAllowed request.method)) m := by
  intro r
  have hprepared : Act.outcome (r.answer routers (.prepareCollection (context request))) m =
      (.ok (.ok (context request)), m) := rfl
  simp only [perform, PathCursor.shift, hleft, serveCollection]
  rw [Serving.outcome_ask_bind _ hprepared]
  rfl

theorem outcome_perform_create (hmethod : request.method = "POST") :
    Serving.outcome ((stored k ids limit).answer routers)
      ((stored k ids limit).perform request n out) m =
    Serving.outcome ((stored k ids limit).answer routers)
      ((stored k ids limit).create (context request) request n out) m := by
  exact (outcome_perform_collection k ids limit routers m n out hleft).trans (by rw [if_pos hmethod])

theorem outcome_perform_index (hmethod : request.method = "GET") :
    Serving.outcome ((stored k ids limit).answer routers)
      ((stored k ids limit).perform request n out) m =
    Serving.outcome ((stored k ids limit).answer routers)
      ((stored k ids limit).index (context request) out) m := by
  exact (outcome_perform_collection k ids limit routers m n out hleft).trans (by
    rw [if_neg (by simp [hmethod]), if_pos hmethod])

theorem outcome_perform_destroyAll (hmethod : request.method = "DELETE") :
    Serving.outcome ((stored k ids limit).answer routers)
      ((stored k ids limit).perform request n out) m =
    Serving.outcome ((stored k ids limit).answer routers)
      ((stored k ids limit).destroyAll (context request) out) m := by
  exact (outcome_perform_collection k ids limit routers m n out hleft).trans (by
    rw [if_neg (by simp [hmethod]), if_neg (by simp [hmethod]), if_pos hmethod])

end Collection

section Entity

variable {segment : String} {i : I} (hleft : request.routing.left = [segment])
  (hid : ids.parse (Percent.decodeSegment segment) = .ok i)

include hleft hid

variable (k limit routers m n out)

theorem outcome_perform_entity :
    let r : Resource (Memory E) E I := stored k ids limit
    ∃ c, Serving.outcome (r.answer routers) (r.perform request n out) m =
      Serving.outcome (r.answer routers)
        (if request.method = "GET" then r.show c i out
          else if request.method = "PUT" ∨ request.method = "PATCH" then r.update c i request n out
          else if request.method = "DELETE" then r.destroy c i out
          else throw (notAllowed request.method)) m := by
  intro r
  have hparse : r.ids.parse (Percent.decodeSegment segment) = .ok i := hid
  refine ⟨r.resourceContext request (Percent.decodeSegment segment) i, ?_⟩
  have hprepared : Act.outcome (r.answer routers (.prepareResource
      (r.resourceContext request (Percent.decodeSegment segment) i) i)) m =
        (.ok (.ok (r.resourceContext request (Percent.decodeSegment segment) i)), m) := rfl
  simp only [perform, PathCursor.shift, hleft, serveResource, hparse]
  rw [Serving.outcome_ask_bind _ hprepared]
  rfl

theorem outcome_perform_show (hmethod : request.method = "GET") :
    ∃ c, Serving.outcome ((stored k ids limit).answer routers)
      ((stored k ids limit).perform request n out) m =
    Serving.outcome ((stored k ids limit).answer routers) ((stored k ids limit).show c i out) m := by
  obtain ⟨c, hperform⟩ := outcome_perform_entity k limit routers m n out hleft hid
  exact ⟨c, hperform.trans (by rw [if_pos hmethod])⟩

theorem outcome_perform_update (hmethod : request.method = "PUT") :
    ∃ c, Serving.outcome ((stored k ids limit).answer routers)
      ((stored k ids limit).perform request n out) m =
    Serving.outcome ((stored k ids limit).answer routers)
      ((stored k ids limit).update c i request n out) m := by
  obtain ⟨c, hperform⟩ := outcome_perform_entity k limit routers m n out hleft hid
  exact ⟨c, hperform.trans (by rw [if_neg (by simp [hmethod]), if_pos (Or.inl hmethod)])⟩

theorem outcome_perform_destroy (hmethod : request.method = "DELETE") :
    ∃ c, Serving.outcome ((stored k ids limit).answer routers)
      ((stored k ids limit).perform request n out) m =
    Serving.outcome ((stored k ids limit).answer routers) ((stored k ids limit).destroy c i out) m := by
  obtain ⟨c, hperform⟩ := outcome_perform_entity k limit routers m n out hleft hid
  exact ⟨c, hperform.trans (by
    rw [if_neg (by simp [hmethod]), if_neg (by simp [hmethod]), if_pos hmethod])⟩

end Entity

/-- What a caller gets for the result of an operation. -/
def answered {S : Type} (out : MediaCodec) (path : String) :
    Except ApiError (Response S) → Response S
  | .ok response => response
  | .error e => (e.render out path).2

theorem outcome_service {mediaType : String} {codec : Codec} (hspoken : Spoken mediaType codec)
    (hheaders : request.headers = Spoken.requestHeaders mediaType)
    (h : Serving.outcome ((stored k ids limit).answer routers)
      ((stored k ids limit).perform request ⟨mediaType, codec⟩ ⟨mediaType, codec⟩) m =
        (.ok result, m')) :
    Act.outcome ((stored k ids limit).service routers request) m =
      (.ok (answered ⟨mediaType, codec⟩ request.path result), m') := by
  have hserve := (stored k ids limit).outcome_serve ((stored k ids limit).answer routers) request m
  have hcodecs : (stored k ids limit).codecs = [] := rfl
  simp only [hcodecs, hheaders, hspoken.forRequest_eq, hspoken.forResponse_eq, h] at hserve
  cases result with
  | ok response => exact hserve
  | error e => exact hserve.trans (outcome_renderError_of_none rfl _ e _ _ m')

end Resource

/-! ## Delivery -/

def Response.delivered {S : Type} (r : Response S) : TransportResponse S :=
  ⟨r.status, r.headers, .ofFrames r.frames r.release⟩

namespace Transport

variable {E I : Type} [DecidableEq I] [Document E] [Identifier I] {k : Identity E I}
  {ids : IdFormat I} {limit : Nat} {t : Routes (Memory E)} {root : NodeId} {path rest : List String}
  {mediaType : String} {codec : Codec} {c : Context} {q : TransportRequest} {w : Timed (Memory E)}
  {result : Except ApiError (Response (Memory E))} {m' : Memory E}

theorem outcome_ofHandler (hspoken : Spoken mediaType codec)
    (hserves : t.Serves root path (Resource.stored k ids limit).handler)
    (hpath : Path.segments q.uri.path = path ++ rest)
    (hheaders : q.headers = Spoken.requestHeaders mediaType) (hlive : c.err w.time = none)
    (h : ∀ routers request, request.method = q.method → request.routing.left = rest →
      request.headers = q.headers → request.chunks = [.ok q.body] →
      Resource.Serving.outcome ((Resource.stored k ids limit).answer routers)
        ((Resource.stored k ids limit).perform request ⟨mediaType, codec⟩ ⟨mediaType, codec⟩) w.inner =
          (.ok result, m')) :
    Act.outcome (ofHandler (.ofRouter root) t c q) w =
      (.ok (.ok (Resource.answered ⟨mediaType, codec⟩ q.uri.path result).delivered),
        { w with inner := m' }) := by
  obtain ⟨params, hdispatch⟩ := hserves q.toRequest.method q.uri.path rest
  have hrouting : q.toRequest.routing = ⟨q.uri.path, [], path ++ rest⟩ := hpath ▸ rfl
  have hparams : q.toRequest.attributes.pathParams = .empty := rfl
  rw [← hrouting, ← hparams] at hdispatch
  obtain ⟨routers, hcall⟩ := Handler.call_ofRouter hdispatch rfl
  -- The request as the router hands it on: what is left of its path is `rest`.
  let request : Request := Router.Route.request
    ⟨(Resource.stored k ids limit).handler, ⟨q.uri.path, path, rest⟩, params, [], false⟩ q.toRequest
  have hservice : Act.outcome ((Resource.stored k ids limit).service routers request) w.inner =
      (.ok (Resource.answered ⟨mediaType, codec⟩ q.uri.path result), m') :=
    Resource.outcome_service hspoken hheaders (h routers request rfl rfl rfl rfl)
  have hanswer : Act.outcome ((Handler.ofRouter root).call t q.toRequest) w.inner =
      (.ok (Resource.answered ⟨mediaType, codec⟩ q.uri.path result), m') := by
    rw [hcall]
    exact Handler.outcome_recovering_ok (Handler.outcome_recovering_ok hservice)
  rw [ofHandler]
  change Act.outcome (Act.get.bind _) w = _
  rw [Act.outcome_bind, Act.outcome_get, Act.continueWith_ok]
  simp only [hlive]
  change Act.outcome ((Timed.lift _).bind _) w = _
  rw [Act.outcome_bind, Act.outcome_lift, hanswer]
  rfl

end Transport

end WebResource
