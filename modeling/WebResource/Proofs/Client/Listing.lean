import WebResource.Proofs.Client.Operations
import WebResource.Proofs.Client.Streaming

namespace WebResource.Client

/-!
# Lists over a link

A linked client gives the entities that are stored in their order, whether it reads the list as it
arrives or in full before, and leaves them as they are.
-/

variable {E I : Type}

/-- The first entities of the list of all entities, whose stream is dropped then. -/
def firstOf {S : Type} (k : Client S E I) (c : Context) (n : Nat) :
    Act (Timed S) (List (Except ClientError E)) := do
  let (rs, rest) ← Entities.take k n (k.findAll c)
  rest.drop
  return rs

theorem outcome_convertAll {S : Type} [Document E] {es : List E} (c : Context) (w : Timed S)
    (hes : ∀ e ∈ es, Document.Returns e) :
    Calling.outcome (convertAll .identity c (es.map Document.toJson)) w = (.ok (.ok es), w) := by
  induction es with
  | nil => rfl
  | cons e es ih =>
      have hmapped : (Mapping.identity : Mapping E).ofDocument c (Document.toJson e) = .ok e :=
        congrArg Mapped.ofExcept (hes e List.mem_cons_self).ofJson_toJson
      rw [List.map_cons, convertAll, hmapped]
      simp only [Calling.mapped, pure_bind]
      rw [Calling.outcome_bind_ok (ih fun e' he' => hes e' (List.mem_cons_of_mem e he'))]
      rfl

namespace Linked

variable [DecidableEq I] [Document E] [Identifier I] {client : Client (Memory E) E I}
  {k : Identity E I} {limit : Nat} {c : Context} {codec : Codec} {base : String}
  {path : List String} {w : Timed (Memory E)}
  (h : Linked client k limit c codec base path)

include h

theorem outcome_requestList (hlive : c.err w.time = none) (hstreaming : codec.streaming.isSome)
    (hinjected : w.inner.injected = none) (hes : ∀ e ∈ w.inner.entities, Document.Returns e) :
    ∃ xs m', Calling.outcome (client.requestList c) w = (.ok (.ok xs), { w with inner := m' }) ∧
      Entities.Ahead c { w with inner := m' } w.inner xs w.inner.entities := by
  obtain ⟨format, hformat⟩ := Option.isSome_iff_exists.mp hstreaming
  obtain ⟨u, hu, hpath⟩ := h.basedAt.collection
  rw [← List.append_nil path] at hpath
  obtain ⟨fs, release, m', hindex, hrelease, htext⟩ :=
    Resource.outcome_index k client.ids limit client.mediaType hformat hinjected
  let response : Response (Memory E) :=
    ⟨200, [("content-type", Utf8.encode client.mediaType)], fs, release⟩
  have hserve (routers : NodeId → Service (Memory E)) (request : Request)
      (hmethod : request.method = "GET") (hleft : request.routing.left = [])
      (_ : request.headers = Spoken.requestHeaders client.mediaType)
      (_ : request.chunks = [.ok []]) :
      Resource.Serving.outcome ((Resource.stored k client.ids limit).answer routers)
        ((Resource.stored k client.ids limit).perform request ⟨client.mediaType, codec⟩
          ⟨client.mediaType, codec⟩) w.inner = (.ok (.ok response), m') := by
    rw [Resource.outcome_perform_index k client.ids limit routers w.inner _ _ hleft hmethod]
    exact hindex routers _
  have hsend : Calling.outcome (client.send c "GET" base []) w =
      (.ok (.ok response.delivered), { w with inner := m' }) :=
    h.outcome_send hlive hu hpath hserve
  have hcodec : client.responseCodec response.delivered.headers = ⟨client.mediaType, codec⟩ :=
    responseCodec_eq h.codecs h.spoken.known
  have hmapping : client.mappings.get client.mediaType = .identity := by
    rw [h.mappings]
    rfl
  have hurl : Calling.outcome (Calling.ofExcept id (client.collectionUrl c)) w = (.ok (.ok base), w) := by
    rw [h.collectionUrl]
    rfl
  have hreceived (f : String → TransportResponse (Memory E) →
      Calling (Memory E) (Entities (Memory E) E I)) :
      Calling.outcome (Calling.ofExcept id (client.collectionUrl c) >>= fun url =>
        client.send c "GET" url [] >>= f url) w =
          Calling.outcome (f base response.delivered) { w with inner := m' } := by
    rw [Calling.outcome_bind_ok hurl, Calling.outcome_bind_ok hsend]
  have hsuccess : Status.isSuccess response.delivered.status = true := rfl
  rw [requestList, hreceived]
  simp only [hsuccess, Bool.not_true, Bool.false_eq_true, if_false, hcodec, hformat, hmapping]
  cases client.disableStreaming with
  | false =>
      -- The stream of the entities in memory is open until the body is read or dropped.
      refine ⟨_, m', rfl, .arriving ⟨rfl, rfl, hrelease, ⟨fs, rfl, ?_⟩, nofun⟩⟩
      rw [List.nil_append, htext]
      exact ListDecoder.pending_text format _
  | true =>
      have hbytes : Act.outcome (response.delivered.body.cancellable c).bytes { w with inner := m' } =
          (.ok (.ok (fs.map Frame.data).flatten), w) :=
        (Body.outcome_bytes rfl (Body.live_some hlive)).trans (by
          rw [show (response.delivered.body.cancellable c).release m' = w.inner from hrelease])
      have hdocuments : decodeList format (fs.map Frame.data).flatten =
          .ok (w.inner.entities.map Document.toJson) := by
        rw [htext]
        exact decodeList_text format (readable_documents hes)
      simp only [if_true]
      refine ⟨.arrived w.inner.entities, w.inner, ?_, .arrived _ rfl⟩
      rw [Calling.outcome_bind_ok (Calling.outcome_lift hbytes),
        Calling.outcome_bind_ok (Calling.outcome_ofExcept _ _ _), hdocuments,
        Calling.outcome_bind_ok (Calling.outcome_ofExcept _ _ _),
        Calling.outcome_bind_ok (outcome_convertAll c w hes)]
      rfl

/-- The first entities of a list over a link are the first ones that are stored. -/
theorem outcome_firstOf (hlive : c.err w.time = none) (hstreaming : codec.streaming.isSome)
    (hinjected : w.inner.injected = none) (hes : ∀ e ∈ w.inner.entities, Document.Returns e) (n : Nat) :
    Act.outcome (client.firstOf c n) w = (.ok ((w.inner.entities.take n).map .ok), w) := by
  cases n with
  -- Nothing is sent before the first entity is asked for.
  | zero => rfl
  | succ n =>
      obtain ⟨xs, m', hlist, hahead⟩ := h.outcome_requestList hlive hstreaming hinjected hes
      have hnext : Act.outcome ((Entities.list c).next client) w =
          Act.outcome (xs.next client) { w with inner := m' } := by
        change Act.outcome (Prog.bind (client.requestList c).run _) w = _
        rw [Act.outcome_bind, hahead.next_eq]
        exact congrArg (Act.continueWith · _) hlist
      have hfirst : Act.outcome (Entities.take client (n + 1) (.list c)) w =
          Act.outcome (Entities.take client (n + 1) xs) { w with inner := m' } := by
        change Act.outcome ((Entities.next client (.list c)).bind _) w =
          Act.outcome ((xs.next client).bind _) _
        rw [Act.outcome_bind, Act.outcome_bind, hnext]
      obtain ⟨rest, m'', htake, hrest⟩ :=
        Entities.outcome_take (k := client) (w := { w with inner := m' }) hes hlive hahead (n + 1)
      have hall : client.findAll c = .list c := congrArg Entities.list (congrFun h.contextHook c)
      rw [firstOf, hall]
      change Act.outcome ((Entities.take client (n + 1) (.list c)).bind _) w = _
      rw [Act.outcome_bind, hfirst, htake, Act.continueWith_ok]
      change Act.outcome (rest.drop.bind _) _ = _
      rw [Act.outcome_bind, Entities.outcome_drop hrest]
      rfl

end Linked

end WebResource.Client
