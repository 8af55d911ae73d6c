import WebResource.Proofs.Client.Link
import WebResource.Proofs.Client.Sending

namespace WebResource.Client

/-!
# Operations over a link

Each call on a linked client gives what the operation on the entities gives, and leaves behind what it
leaves behind.
-/

variable {E I : Type} [DecidableEq I] [Document E] [Identifier I]

/-- Entities and identifiers that get through: every codec carries the entities, their identifiers
are those of their documents, and the identifiers can be read from the URLs of the entities. -/
structure Portable (k : Identity E I) (ids : IdFormat I) (base : String) (P : E → Prop)
    (Q : I → Prop) : Prop where
  carries : ∀ e, P e → ∀ {mediaType codec}, Spoken mediaType codec → codec.Carries e
  returns : ∀ e, P e → Document.Returns e
  getField : ∀ e, P e → IdLens.getField "id" e = k.id e
  setField : ∀ e i, P e → k.id e = some i → IdLens.setField "id" i e = .ok e
  id : ∀ e i, P e → k.id e = some i → Q i
  setId : ∀ e n, P e → P (k.setId (k.fresh n) e)
  format : ∀ i, Q i → ∃ text, ids.format i = .ok text ∧ ids.parse text = .ok i ∧
    text ≠ "" ∧ text ≠ "." ∧ text ≠ ".." ∧
    (Text.dropEnd '/' base ++ "/" ++ Percent.encodeSegment text).utf8ByteSize ≤ Uri.maxLength

/-- An error of the repository as the client reports it, for the entity with an identifier. -/
def reported (ids : IdFormat I) (i : Option I) (x : StorageError) : ClientError :=
  match x.kind, i with
  | .notFound, some i => .notFound ((ids.format i).toOption.getD "")
  | _, _ => .alreadyExists x.message

/-- A body within the limit of the resource. -/
def Bounded (codec : Codec) (limit : Nat) (e : E) : Prop :=
  ∀ body, codec.marshal (Document.toJson e) = .ok body → body.length ≤ limit

theorem readDocument_eq {mediaType : String} {codec : Codec} {limit : Nat} {request : Request}
    {body : Bytes} {j : Json} (hheaders : request.headers = Spoken.requestHeaders mediaType)
    (hchunks : request.chunks = [.ok body]) (hlength : body.length ≤ limit)
    (hj : codec.unmarshal body = .ok j) :
    Resource.readDocument limit request ⟨mediaType, codec⟩ = .ok j := by
  have hundeclared : Resource.declaredLength request.headers = none := by
    have htype : Headers.matchesName "content-length" ("content-type", Utf8.encode mediaType) = false :=
      (by decide +kernel : ("content-type".toLower == "content-length".toLower) = false)
    have haccept : Headers.matchesName "content-length" ("accept", Utf8.encode mediaType) = false :=
      (by decide +kernel : ("accept".toLower == "content-length".toLower) = false)
    rw [hheaders, Resource.declaredLength, Headers.firstText?, Headers.first?, Spoken.requestHeaders,
      List.find?_cons_of_neg (by simp [htype]), List.find?_cons_of_neg (by simp [haccept])]
    rfl
  have hbody : Resource.readBody limit request = .ok body := by
    rw [Resource.readBody, hundeclared, hchunks]
    simp [Resource.readChunks, Nat.not_lt.mpr hlength]
  simp only [Resource.readDocument, hbody, hj]

theorem Portable.created {k : Identity E I} {ids : IdFormat I} {base : String} {P : E → Prop}
    {Q : I → Prop} (h : Portable k ids base P Q) {e created : E} {m : Memory E} (he : P e)
    (hcreate : (Memory.create k e m).1 = .ok created) : P created := by
  unfold Memory.create at hcreate
  cases hid : k.id e with
  | none =>
      simp only [hid] at hcreate
      cases hcreate
      exact h.setId e m.sequence he
  | some i =>
      simp only [hid] at hcreate
      split at hcreate <;> cases hcreate
      exact he

omit [DecidableEq I] [Document E] [Identifier I] in
theorem answered_missing {mediaType : String} {codec : Codec} (hspoken : Spoken mediaType codec)
    (ids : IdFormat I) (i : I) (uri : String) :
    ∃ body, Resource.answered ⟨mediaType, codec⟩ uri (.error (Resource.missingEntity ids i)) =
      (.ofBytes 404 (ApiError.problemMedia mediaType) body : Response (Memory E)) := by
  obtain ⟨body, j, hrender, -, -⟩ :=
    (Resource.missingEntity ids i).render_eq (S := Memory E) hspoken.known uri
  exact ⟨body, hrender⟩

namespace Linked

variable {client : Client (Memory E) E I} {k : Identity E I} {limit : Nat} {c : Context}
  {codec : Codec} {base : String} {path : List String} {w : Timed (Memory E)} {P : E → Prop}
  {Q : I → Prop} {e : E} {i : I}
  (h : Linked client k limit c codec base path)

include h

theorem outcome_encode {body : Bytes} (hbody : codec.marshal (Document.toJson e) = .ok body) :
    Calling.outcome (client.encode c e) w = (.ok (.ok body), w) := by
  have hmapped : (client.mappings.get client.mediaType).toDocument c e = .ok (Document.toJson e) := by
    rw [h.mappings]
    rfl
  simp only [encode, h.codec_eq, hmapped, Calling.mapped, pure_bind, hbody]
  rfl

omit h in
/-- What serving comes to where a document of an entity has been posted to a collection. -/
theorem outcome_perform_posted (k : Identity E I) (ids : IdFormat I) (limit : Nat)
    (routers : NodeId → Service (Memory E)) (m : Memory E) {request : Request} {mediaType : String}
    {body : Bytes} {j : Json}
    (hmethod : request.method = "POST") (hleft : request.routing.left = [])
    (hheaders : request.headers = Spoken.requestHeaders mediaType)
    (hchunks : request.chunks = [.ok body]) (hlength : body.length ≤ limit)
    (hj : codec.unmarshal body = .ok j) (hread : Document.ofJson j = .ok e) :
    Resource.Serving.outcome ((Resource.stored k ids limit).answer routers)
      ((Resource.stored k ids limit).perform request ⟨mediaType, codec⟩ ⟨mediaType, codec⟩) m =
      match Memory.create k e m with
      | (.ok created, m') =>
        Resource.Serving.outcome ((Resource.stored k ids limit).answer routers)
          ((Resource.stored k ids limit).entityResponse (Resource.context request) 201 created
            ⟨mediaType, codec⟩) m'
      | (.error x, m') => (.ok (.error x.toApi), m') := by
  rw [Resource.outcome_perform_create k ids limit routers m _ _ hleft hmethod]
  exact Resource.outcome_create _ _ _ _ (readDocument_eq hheaders hchunks hlength hj) hread

variable (hportable : Portable k client.ids base P Q) (hlive : c.err w.time = none)

include hportable hlive

theorem outcome_create (he : P e) (hbounded : Bounded codec limit e) :
    Calling.outcome (client.create c e) w =
      (.ok ((Memory.create k e w.inner).1.mapError (reported client.ids none)),
        { w with inner := (Memory.create k e w.inner).2 }) := by
  obtain ⟨body, j, hbody, hj, hread⟩ := hportable.carries e he h.spoken
  obtain ⟨u, hu, hpath⟩ := h.basedAt.collection
  rw [← List.append_nil path] at hpath
  have hcall : client.create c e = client.encode c e >>= fun body =>
      client.send c "POST" base body >>= fun r =>
        if Status.isSuccess r.status then client.entityIn c r
        else if r.status = 409 then client.conflict base r else unexpected base r := by
    rw [create]
    simp only [h.contextHook, id, h.collectionUrl]
    rfl
  have hserve (routers : NodeId → Service (Memory E)) (request : Request)
      (hmethod : request.method = "POST") (hleft : request.routing.left = [])
      (hheaders : request.headers = Spoken.requestHeaders client.mediaType)
      (hchunks : request.chunks = [.ok body]) :=
    outcome_perform_posted k client.ids limit routers w.inner hmethod hleft hheaders hchunks
      (hbounded body hbody) hj hread
  rw [hcall, Calling.outcome_bind_ok (h.outcome_encode hbody)]
  cases hcreate : Memory.create k e w.inner with
  | mk result m' =>
      simp only [hcreate] at hserve
      cases result with
      | ok created =>
          obtain ⟨body', j', hbody', hj', hread'⟩ :=
            hportable.carries created (hportable.created he (congrArg Prod.fst hcreate)) h.spoken
          rw [Calling.outcome_bind_ok (h.outcome_send hlive hu hpath
            fun routers request hmethod hleft hheaders hchunks =>
              (hserve routers request hmethod hleft hheaders hchunks).trans
                (Resource.outcome_entityResponse _ _ 201 hbody'))]
          exact outcome_entityIn (w := { w with inner := m' }) h.codecs h.spoken.known h.mappings hj'
            hread' hlive 201
      | error x =>
          -- Creating an entity fails in one way only, and that is the conflict the client knows.
          obtain rfl := Resource.error_of_create hcreate
          rw [Calling.outcome_bind_ok (h.outcome_send hlive hu hpath hserve)]
          have hstatus : (Resource.answered ⟨client.mediaType, codec⟩ u.path
              (.error Memory.alreadyExists.toApi) : Response (Memory E)).delivered.status = 409 :=
            ApiError.status_render Memory.alreadyExists.toApi ⟨client.mediaType, codec⟩ u.path
          rw [hstatus]
          exact outcome_conflict (w := { w with inner := m' }) h.codecs h.spoken (by decide) base u.path

theorem outcome_send_entity (hi : Q i) : ∃ text url uri,
    client.ids.format i = .ok text ∧ client.entityUrl (client.contextHook c) i = .ok url ∧
    ∀ (method : String) (body : Bytes) (result : Except ApiError (Response (Memory E))) (m' : Memory E),
      (∀ routers request segment, request.method = method → request.routing.left = [segment] →
        client.ids.parse (Percent.decodeSegment segment) = .ok i →
        request.headers = Spoken.requestHeaders client.mediaType → request.chunks = [.ok body] →
        Resource.Serving.outcome ((Resource.stored k client.ids limit).answer routers)
          ((Resource.stored k client.ids limit).perform request ⟨client.mediaType, codec⟩
            ⟨client.mediaType, codec⟩) w.inner = (.ok result, m')) →
      Calling.outcome (client.send c method url body) w =
        (.ok (.ok (Resource.answered ⟨client.mediaType, codec⟩ uri result).delivered),
          { w with inner := m' }) := by
  obtain ⟨text, hformat, hparse, hempty, hdot, hparent, hroom⟩ := hportable.format i hi
  obtain ⟨u, hu, hpath⟩ := h.basedAt.entity hempty hdot hparent hroom
  have hurl : client.entityUrl (client.contextHook c) i =
      .ok (Text.dropEnd '/' base ++ "/" ++ Percent.encodeSegment text) := by
    simp only [entityUrl, h.contextHook, id, h.collectionUrl, hformat]
  have hid : client.ids.parse (Percent.decodeSegment (Percent.encodeSegment text)) = .ok i := by
    rw [Percent.decodeSegment_encodeSegment, hparse]
  refine ⟨text, _, u.path, hformat, hurl, fun method body result m' hserve => ?_⟩
  exact h.outcome_send hlive hu hpath fun routers request hmethod hleft hheaders hchunks =>
    hserve routers request _ hmethod hleft hid hheaders hchunks

theorem outcome_findById (hi : Q i) (hstored : ∀ e ∈ w.inner.entities, P e) :
    Calling.outcome (client.findById c i) w = (.ok (.ok (w.inner.find k i)), w) := by
  obtain ⟨text, url, uri, -, hurl, hsend⟩ := h.outcome_send_entity hportable hlive hi
  have hcall : client.findById c i = client.send c "GET" url [] >>= client.found c url := by
    have hfind := findById_eq hurl client.transport
    rw [h.contextHook] at hfind
    exact hfind
  rw [hcall]
  cases hfind : w.inner.find k i with
  | none =>
      have hserve := hsend "GET" [] (.error (Resource.missingEntity client.ids i)) w.inner
        fun routers request segment hmethod hleft hid _ _ => by
          obtain ⟨c', hperform⟩ := Resource.outcome_perform_show k limit routers w.inner _ _ hleft hid hmethod
          rw [hperform, Resource.outcome_show, hfind]
      rw [Calling.outcome_bind_ok hserve]
      obtain ⟨body, hmissing⟩ := answered_missing h.spoken client.ids i uri
      rw [hmissing]
      exact Calling.outcome_bind_ok (outcome_discard _ w) _
  | some e =>
      have he : P e := hstored e (List.mem_of_find?_eq_some hfind)
      obtain ⟨body, j, hbody, hj, hread⟩ := hportable.carries e he h.spoken
      have hserve := hsend "GET" [] (.ok (.ofBytes 200 client.mediaType body)) w.inner
        fun routers request segment hmethod hleft hid _ _ => by
          obtain ⟨c', hperform⟩ := Resource.outcome_perform_show k limit routers w.inner _ _ hleft hid hmethod
          rw [hperform, Resource.outcome_show, hfind]
          exact Resource.outcome_entityResponse _ _ 200 hbody
      rw [Calling.outcome_bind_ok hserve]
      exact Calling.outcome_bind_ok (outcome_entityIn (w := w) h.codecs h.spoken.known h.mappings hj
        hread hlive 200) _

omit hlive in
/-- What a client makes of the response for an entity that has to exist. -/
theorem outcome_settle {result : Except StorageError Unit}
    (hresult : ∀ x, result = .error x → x = Memory.notFound) (hi : Q i) (url uri : String) :
    Calling.outcome (client.settle i url (Resource.answered ⟨client.mediaType, codec⟩ uri
      (Resource.settled client.ids ⟨client.mediaType, codec⟩ i result) : Response (Memory E)).delivered) w =
        (.ok (result.mapError (reported client.ids (some i))), w) := by
  cases result with
  | ok a => exact outcome_discard _ w
  | error x =>
      obtain rfl := hresult x rfl
      obtain ⟨text, hformat, -⟩ := hportable.format i hi
      obtain ⟨body, hmissing⟩ := answered_missing h.spoken client.ids i uri
      have hreported : reported client.ids (some i) Memory.notFound = .notFound text := by
        simp only [reported, Memory.notFound, hformat]
        rfl
      rw [Resource.settled, hmissing]
      have hdiscard := outcome_discard
        (Response.ofBytes 404 (ApiError.problemMedia client.mediaType) body :
          Response (Memory E)).delivered w
      refine (Calling.outcome_bind_ok hdiscard _).trans ?_
      rw [hformat, Calling.outcome_bind_ok (Calling.outcome_ofExcept _ text _), Except.mapError,
        hreported]
      rfl

theorem outcome_update (he : P e) (hid : k.id e = some i) (hbounded : Bounded codec limit e) :
    Calling.outcome (client.update c e) w =
      (.ok ((Memory.update k e w.inner).1.mapError (reported client.ids (some i))),
        { w with inner := (Memory.update k e w.inner).2 }) := by
  have hi : Q i := hportable.id e i he hid
  obtain ⟨body, j, hbody, hj, hread⟩ := hportable.carries e he h.spoken
  obtain ⟨text, url, uri, -, hurl, hsend⟩ := h.outcome_send_entity hportable hlive hi
  have hget : client.idLens.get e = some i := by
    rw [h.idLens]
    exact (hportable.getField e he).trans hid
  have hcall : client.update c e = client.encode c e >>= fun body =>
      client.send c "PUT" url body >>= client.settle i url := by
    have hupdate := update_eq hurl hget client.transport
    rw [h.contextHook] at hupdate
    exact hupdate
  -- The identifier in the path is that of the entity, so setting it leaves the entity as it is.
  have hserve := hsend "PUT" body
    (Resource.settled client.ids ⟨client.mediaType, codec⟩ i (Memory.update k e w.inner).1)
    (Memory.update k e w.inner).2 fun routers request segment hmethod hleft hparse hheaders hchunks => by
      obtain ⟨c', hperform⟩ :=
        Resource.outcome_perform_update k limit routers w.inner _ _ hleft hparse hmethod
      rw [hperform]
      exact Resource.outcome_update _ _ _ _ _
        (readDocument_eq hheaders hchunks (hbounded body hbody) hj) hread
        (hportable.setField e i he hid) hid
  rw [hcall, Calling.outcome_bind_ok (h.outcome_encode hbody), Calling.outcome_bind_ok hserve]
  exact h.outcome_settle hportable (fun x => Resource.error_of_update hid) hi url uri

theorem outcome_deleteById (hi : Q i) :
    Calling.outcome (client.deleteById c i) w =
      (.ok ((Memory.delete k i w.inner).1.mapError (reported client.ids (some i))),
        { w with inner := (Memory.delete k i w.inner).2 }) := by
  obtain ⟨text, url, uri, -, hurl, hsend⟩ := h.outcome_send_entity hportable hlive hi
  have hcall : client.deleteById c i = client.send c "DELETE" url [] >>= client.settle i url := by
    have hdelete := deleteById_eq hurl client.transport
    rw [h.contextHook] at hdelete
    exact hdelete
  have hserve := hsend "DELETE" []
    (Resource.settled client.ids ⟨client.mediaType, codec⟩ i (Memory.delete k i w.inner).1)
    (Memory.delete k i w.inner).2 fun routers request segment hmethod hleft hparse _ _ => by
      obtain ⟨c', hperform⟩ :=
        Resource.outcome_perform_destroy k limit routers w.inner _ _ hleft hparse hmethod
      rw [hperform]
      exact Resource.outcome_destroy _ _ _
  rw [hcall, Calling.outcome_bind_ok hserve]
  exact h.outcome_settle hportable (fun x => Resource.error_of_delete) hi url uri

omit hportable in
theorem outcome_deleteAll :
    Calling.outcome (client.deleteAll c) w =
      (.ok (.ok ()), { w with inner := w.inner.deleteAll }) := by
  obtain ⟨u, hu, hpath⟩ := h.basedAt.collection
  rw [← List.append_nil path] at hpath
  have hcall : client.deleteAll c = client.send c "DELETE" base [] >>= fun r =>
      if Status.isSuccess r.status then discard r else unexpected base r := by
    rw [deleteAll]
    simp only [h.contextHook, id, h.collectionUrl]
    rfl
  have hserve (routers : NodeId → Service (Memory E)) (request : Request)
      (hmethod : request.method = "DELETE") (hleft : request.routing.left = [])
      (_ : request.headers = Spoken.requestHeaders client.mediaType)
      (_ : request.chunks = [.ok []]) :
      Resource.Serving.outcome ((Resource.stored k client.ids limit).answer routers)
        ((Resource.stored k client.ids limit).perform request ⟨client.mediaType, codec⟩
          ⟨client.mediaType, codec⟩) w.inner =
        (.ok (.ok (Resource.noContent ⟨client.mediaType, codec⟩)), w.inner.deleteAll) := by
    rw [Resource.outcome_perform_destroyAll k client.ids limit routers w.inner _ _ hleft hmethod]
    exact Resource.outcome_destroyAll _ _
  rw [hcall, Calling.outcome_bind_ok (h.outcome_send hlive hu hpath hserve)]
  exact outcome_discard _ _

end Linked

end WebResource.Client
