import WebResource.Proofs.Repository.Memory
import WebResource.Proofs.Resource.Memory
import WebResource.Sample.Entities

namespace WebResource.Resource

/-!
# Failed requests

A resource over entities in memory changes what is stored in the last step of a request that can
fail, and the step itself either fails or changes something. Only a creation goes on after that: the
entity is stored, and then it has to be rendered for the caller.
-/

variable {E I : Type} [DecidableEq I] {k : Identity E I} {r : Resource (Memory E) E I}
  {routers : NodeId → Service (Memory E)} {m : Memory E} {es : List E}

/-! ## Parts that change nothing -/

/-- Hooks and nested routes that leave the stored entities as they are. -/
structure LeavesEntities (r : Resource (Memory E) E I) : Prop where
  collectionHook : ∀ f c, r.collectionHook = some f → Act.Preserves Memory.entities (f c)
  resourceHook : ∀ f c i, r.resourceHook = some f → Act.Preserves Memory.entities (f c i)
  routes : ∀ h routers request, r.routes = some h →
    Act.Preserves Memory.entities (h.serve routers request)

omit [DecidableEq I] in
theorem leavesEntities_of_none (hcollection : r.collectionHook = none)
    (hresource : r.resourceHook = none) (hroutes : r.routes = none) : LeavesEntities r where
  collectionHook f c h := by simp [hcollection] at h
  resourceHook f c i h := by simp [hresource] at h
  routes h routers request hr := by simp [hroutes] at hr

/-- The calls that are no operations on all entities and change none. -/
def Call.IsLookup : Call (Memory E) E I → Prop
  | .find _ _ => True
  | .prepareCollection _ => True
  | .prepareResource _ _ => True
  | .delegate _ => True
  | _ => False

section Answers

variable (hr : r.operations = Memory.operations k)

include hr

variable (hleaves : LeavesEntities r)

include hleaves

theorem preserves_answer {q : Call (Memory E) E I} (hq : q.IsLookup) :
    Act.Preserves Memory.entities (r.answer routers q) := by
  cases q with
  | find c i =>
      intro m
      rw [outcome_answer_find hr]
  | prepareCollection c =>
      cases hhook : r.collectionHook with
      | none =>
          simp only [answer, hhook]
          exact Act.preserves_done _ _
      | some f =>
          simp only [answer, hhook]
          exact hleaves.collectionHook f c hhook
  | prepareResource c i =>
      cases hhook : r.resourceHook with
      | none =>
          simp only [answer, hhook]
          exact Act.preserves_done _ _
      | some f =>
          simp only [answer, hhook]
          exact hleaves.resourceHook f c i hhook
  | delegate request =>
      cases hroutes : r.routes with
      | none =>
          simp only [answer, hroutes]
          exact Act.preserves_panic _ _
      | some h =>
          simp only [answer, hroutes]
          exact hleaves.routes h routers request hroutes
  | create c e => exact hq.elim
  | index c => exact hq.elim
  | update c e => exact hq.elim
  | destroy c i => exact hq.elim
  | destroyAll c => exact hq.elim
  | release f => exact hq.elim

/-- A part of serving that only looks things up leaves the entities as they are. -/
theorem entities_of_asks {α : Type} {x : Serving (Memory E) E I α}
    (hx : Serving.Asks Call.IsLookup x) :
    (Serving.outcome (r.answer routers) x m).2.entities = m.entities :=
  Act.Preserves.interpret hx (fun _ hq => preserves_answer hr hleaves hq) m

end Answers

/-! ## Operations -/

/-- A request is over: it has succeeded, or what is stored is what was. -/
def Settled (es : List E) (o : Except Payload (Except ApiError (Response (Memory E))) × Memory E) :
    Prop :=
  o.2.entities = es ∨ ∃ response, o.1 = .ok (.ok response) ∧ response.status < 400

/-- An entity for which no body can be made. -/
def Unrenderable (r : Resource (Memory E) E I) (c : Context) (e : E) (out : MediaCodec) : Prop :=
  ∀ document, (r.mappings.get out.mediaType).toDocument c e = .ok document →
    ∀ body, out.codec.marshal document ≠ .ok body

/-- The entity in the body of a request has been created in a context, behind other entities, but no body
can be made for it. -/
def CreatedUnrendered (k : Identity E I) (r : Resource (Memory E) E I) (c : Context) (request : Request)
    (n out : MediaCodec) (es : List E) (m m' : Memory E) : Prop :=
  ∃ document e created, readDocument r.bodyReadLimit request n = .ok document ∧
    (r.mappings.get n.mediaType).ofDocument c document = .ok e ∧
      Memory.create k e m = (.ok created, m') ∧ m'.entities = es ++ [created] ∧
        r.Unrenderable c created out

/-- The same in the context that the hook of the collection has prepared. -/
def StoredUnrendered (k : Identity E I) (r : Resource (Memory E) E I)
    (routers : NodeId → Service (Memory E)) (request : Request) (n out : MediaCodec)
    (m m' : Memory E) : Prop :=
  ∃ c m₁,
    Act.outcome (r.answer routers (.prepareCollection (context request))) m = (.ok (.ok c), m₁) ∧
      CreatedUnrendered k r c request n out m.entities m₁ m'

omit [DecidableEq I] in
theorem settled_bind {α : Type} {answer : (q : Call (Memory E) E I) → Act (Memory E) (Call.Answer q)}
    {x : Serving (Memory E) E I α} {f : α → Serving (Memory E) E I (Response (Memory E))}
    {P : Except Payload (Except ApiError (Response (Memory E))) × Memory E → Prop}
    (hsettled : ∀ o, Settled es o → P o) (hx : (Serving.outcome answer x m).2.entities = es)
    (hf : ∀ a m', Serving.outcome answer x m = (.ok (.ok a), m') → m'.entities = es →
      P (Serving.outcome answer (f a) m')) :
    P (Serving.outcome answer (x >>= f) m) := by
  rw [Serving.outcome_bind]
  rcases hout : Serving.outcome answer x m with ⟨p | e | a, m'⟩
  · exact hsettled _ (Or.inl (by rw [hout] at hx; exact hx))
  · exact hsettled _ (Or.inl (by rw [hout] at hx; exact hx))
  · exact hf a m' hout (by rw [hout] at hx; exact hx)

omit [DecidableEq I] in
theorem outcome_of_ask {answer : (q : Call (Memory E) E I) → Act (Memory E) (Call.Answer q)}
    {q : Call (Memory E) E I} {a : q.Answer} {m' : Memory E}
    (h : Serving.outcome answer (Serving.ask q) m = (.ok (.ok a), m')) :
    Act.outcome (answer q) m = (.ok a, m') := by
  rw [Serving.outcome_ask] at h
  rcases hout : Act.outcome (answer q) m with ⟨p | a', m''⟩ <;> rw [hout] at h <;> cases h
  rfl

section Operations

variable (hr : r.operations = Memory.operations k) (hleaves : LeavesEntities r) (c : Context)
  (i : I) (request : Request) (n out : MediaCodec) (hm : m.entities = es)

include hr hleaves hm

theorem entities_eq_of_asks {α : Type} {x : Serving (Memory E) E I α}
    (hx : Serving.Asks Call.IsLookup x) : (Serving.outcome (r.answer routers) x m).2.entities = es :=
  (entities_of_asks hr hleaves hx).trans hm

theorem settled_of_asks {x : Serving (Memory E) E I (Response (Memory E))}
    (hx : Serving.Asks Call.IsLookup x) : Settled es (Serving.outcome (r.answer routers) x m) :=
  Or.inl (entities_eq_of_asks hr hleaves hm hx)

theorem settled_bind_asks {α : Type} {x : Serving (Memory E) E I α}
    {f : α → Serving (Memory E) E I (Response (Memory E))}
    (hx : Serving.Asks Call.IsLookup x)
    (hf : ∀ a m', m'.entities = es → Settled es (Serving.outcome (r.answer routers) (f a) m')) :
    Settled es (Serving.outcome (r.answer routers) (x >>= f) m) :=
  settled_bind (fun _ h => h) (entities_eq_of_asks hr hleaves hm hx) fun a m' _ => hf a m'

theorem show_settled : Settled es (Serving.outcome (r.answer routers) (r.show c i out) m) :=
  settled_of_asks hr hleaves hm (r.show_asks c i out trivial)

theorem destroy_settled : Settled es (Serving.outcome (r.answer routers) (r.destroy c i out) m) := by
  unfold destroy
  simp only [hr, Memory.operations]
  refine settled_bind_asks hr hleaves hm (r.requireExisting_asks c i trivial) fun _ m' hm' => ?_
  rw [Serving.outcome_ask_bind _ (outcome_answer_destroy hr c i)]
  cases hdelete : (Memory.delete k i m').1 with
  | error x =>
      rw [Memory.delete_of_error hdelete]
      exact settled_bind_asks hr hleaves hm' (Serving.Asks.persistedFor _ _) fun _ m'' hm'' =>
        settled_of_asks hr hleaves hm'' (Serving.Asks.pure _)
  | ok u => exact Or.inr ⟨_, rfl, (by decide : 204 < 400)⟩

theorem update_settled :
    Settled es (Serving.outcome (r.answer routers) (r.update c i request n out) m) := by
  unfold update
  simp only [hr, Memory.operations]
  refine settled_bind_asks hr hleaves hm (Serving.Asks.ofExcept _) fun document m' hm' => ?_
  refine settled_bind_asks hr hleaves hm' (r.requireExisting_asks c i trivial) fun _ m' hm' => ?_
  refine settled_bind_asks hr hleaves hm' (Serving.Asks.mapped _ _) fun before m' hm' => ?_
  cases r.idLens.set i before with
  | error x => exact settled_of_asks hr hleaves hm' (Serving.Asks.throw _)
  | ok e =>
      simp only
      rw [Serving.outcome_ask_bind _ (outcome_answer_update hr c e)]
      cases hupdate : (Memory.update k e m').1 with
      | error x =>
          rw [Memory.update_of_error hupdate]
          exact settled_bind_asks hr hleaves hm' (Serving.Asks.persistedFor _ _) fun _ m'' hm'' =>
            settled_of_asks hr hleaves hm'' (Serving.Asks.pure _)
      | ok u => exact Or.inr ⟨_, rfl, (by decide : 204 < 400)⟩

omit hleaves hm in
theorem destroyAll_settled :
    Settled es (Serving.outcome (r.answer routers) (r.destroyAll c out) m) := by
  rw [destroyAll_eq (by simp [hr, Memory.operations])]
  rw [Serving.outcome_ask_bind _ (outcome_answer_destroyAll hr c)]
  exact Or.inr ⟨_, rfl, (by decide : 204 < 400)⟩

theorem index_settled : Settled es (Serving.outcome (r.answer routers) (r.index c out) m) := by
  unfold index
  simp only [hr, Memory.operations]
  cases out.codec.streaming with
  | none => exact Or.inl hm
  | some format =>
      refine Or.inl ?_
      simp only [Option.isNone_some, Bool.false_eq_true, if_false]
      rw [Serving.outcome_ask_bind _ (outcome_answer_index hr c)]
      have hrelease (m' : Memory E) (x : Serving (Memory E) E I (Response (Memory E)))
          (hx : (Serving.outcome (r.answer routers) x m'.closeStream).2.entities = m'.entities) :
          (Serving.outcome (r.answer routers)
            (Serving.ask (.release Memory.closeStream) >>= fun _ => x) m').2.entities = m'.entities := by
        have hreleased : Act.outcome (r.answer routers (.release Memory.closeStream)) m' =
            (.ok (), m'.closeStream) := rfl
        rw [Serving.outcome_ask_bind _ hreleased]
        exact hx
      split
      · exact hm
      · exact (hrelease _ _ rfl).trans hm
      · refine (hrelease _ _ ?_).trans hm
        exact entities_of_asks hr hleaves (Serving.Asks.bind (Serving.Asks.logs _) fun _ =>
          Serving.Asks.throw _)
      · exact (hrelease _ _ rfl).trans hm

omit [DecidableEq I] hr hleaves hm in
/-- An entity is rendered with the status that is asked for, or no body can be made for it. -/
theorem entityResponse_cases (status : Nat) (e : E) :
    (∃ response : Response (Memory E), response.status = status ∧
      (r.entityResponse c status e out : Serving (Memory E) E I _) = pure response) ∨
      r.Unrenderable c e out := by
  unfold entityResponse Unrenderable
  cases (r.mappings.get out.mediaType).toDocument c e with
  | refused why => exact Or.inr fun _ h => by cases h
  | panicked p => exact Or.inr fun _ h => by cases h
  | ok document =>
      simp only [Serving.mapped, pure_bind]
      cases hbody : out.codec.marshal document with
      | ok body => exact Or.inl ⟨.ofBytes status out.mediaType body, rfl, rfl⟩
      | error x =>
          refine Or.inr fun _ h body hok => ?_
          cases h
          rw [hbody] at hok
          cases hok

omit [DecidableEq I] hr hleaves hm in
theorem outcome_entityResponse_state (answer : (q : Call (Memory E) E I) → Act (Memory E) (Call.Answer q))
    (status : Nat) (e : E) :
    (Serving.outcome answer (r.entityResponse c status e out) m).2 = m := by
  have hasks : Serving.Asks (fun _ => False) (r.entityResponse c status e out) :=
    r.entityResponse_asks c out status e
  have hpreserves : Act.Preserves (fun m : Memory E => m)
      ((r.entityResponse c status e out).run.interpret answer) :=
    Act.Preserves.interpret hasks fun _ h => h.elim
  exact hpreserves m

theorem create_settled :
    let o := Serving.outcome (r.answer routers) (r.create c request n out) m
    Settled es o ∨ CreatedUnrendered k r c request n out es m o.2 := by
  let P (o : Except Payload (Except ApiError (Response (Memory E))) × Memory E) : Prop :=
    Settled es o ∨ CreatedUnrendered k r c request n out es m o.2
  change P _
  unfold create ofDocument
  simp only [hr, Memory.operations]
  cases hdocument : readDocument r.bodyReadLimit request n with
  | error x => exact Or.inl (settled_of_asks hr hleaves hm (Serving.Asks.throw _))
  | ok document =>
      change P (Serving.outcome _ (Serving.mapped _ _ >>= _) m)
      cases hmapped : (r.mappings.get n.mediaType).ofDocument c document with
      | refused why => exact Or.inl (settled_of_asks hr hleaves hm (Serving.Asks.throw _))
      | panicked p => exact Or.inl (settled_of_asks hr hleaves hm (Serving.Asks.panic p))
      | ok e =>
          change P (Serving.outcome _ (Serving.ask (.create c e) >>= _) m)
          rw [Serving.outcome_ask_bind _ (outcome_answer_create hr c e)]
          cases hcreate : (Memory.create k e m).1 with
          | error x =>
              rw [Memory.create_of_error hcreate]
              refine Or.inl (settled_bind_asks hr hleaves hm (Serving.Asks.persisted _) ?_)
              intro created m' hm'
              exact settled_of_asks hr hleaves hm' (r.entityResponse_asks c out 201 created)
          | ok created =>
              have hstored : (Memory.create k e m).2.entities = es ++ [created] :=
                hm ▸ Memory.entities_of_create hcreate
              simp only [Serving.persisted, pure_bind]
              -- The entity is stored by now, so only a response that succeeds settles the request.
              rcases r.entityResponse_cases c out 201 created with
                ⟨response, hstatus, hresponse⟩ | hfailed
              · rw [hresponse]
                exact Or.inl (Or.inr ⟨response, rfl, by omega⟩)
              · refine Or.inr ⟨document, e, created, hdocument, hmapped, ?_, ?_, hfailed⟩
                · rw [outcome_entityResponse_state, ← hcreate]
                · rw [outcome_entityResponse_state, hstored]

/-! ## Requests -/

theorem serveCollection_settled :
    let o := Serving.outcome (r.answer routers) (r.serveCollection request n out) m
    Settled es o ∨ (request.method = "POST" ∧ StoredUnrendered k r routers request n out m o.2) := by
  let P (o : Except Payload (Except ApiError (Response (Memory E))) × Memory E) : Prop :=
    Settled es o ∨ (request.method = "POST" ∧ StoredUnrendered k r routers request n out m o.2)
  change P _
  have hask : Serving.Asks Call.IsLookup
      (Serving.ask (.prepareCollection (context request)) : Serving (Memory E) E I _) :=
    Serving.Asks.ask trivial
  unfold serveCollection
  refine settled_bind (fun _ => Or.inl) (entities_eq_of_asks hr hleaves hm hask)
    fun prepared m₁ hprepared hm₁ => ?_
  refine settled_bind (fun _ => Or.inl)
    (entities_eq_of_asks hr hleaves hm₁ (Serving.Asks.ofExcept _)) fun c m₂ hc hm₂ => ?_
  rw [Serving.outcome_ofExcept] at hc
  cases hc
  split
  · next hpost =>
      refine (create_settled hr hleaves c request n out hm₂).imp id fun hstored => ⟨hpost, c, m₁, ?_⟩
      exact ⟨outcome_of_ask hprepared, hm ▸ hstored⟩
  · refine Or.inl ?_
    split
    · exact index_settled hr hleaves c out hm₂
    · split
      · exact destroyAll_settled hr c out
      · exact settled_of_asks hr hleaves hm₂ (Serving.Asks.throw _)

theorem serveResource_settled (segment : String) (cursor : PathCursor) :
    Settled es (Serving.outcome (r.answer routers)
      (r.serveResource request segment cursor n out) m) := by
  unfold serveResource
  cases r.ids.parse segment with
  | error x => exact settled_of_asks hr hleaves hm (Serving.Asks.throw _)
  | ok i =>
      have hask : Serving.Asks Call.IsLookup (Serving.ask (.prepareResource
          (r.resourceContext request segment i) i) : Serving (Memory E) E I _) :=
        Serving.Asks.ask trivial
      refine settled_bind_asks hr hleaves hm hask fun prepared m' hm' => ?_
      refine settled_bind_asks hr hleaves hm' (Serving.Asks.ofExcept _) fun c m' hm' => ?_
      split
      · split
        · exact show_settled hr hleaves c i out hm'
        · split
          · exact update_settled hr hleaves c i request n out hm'
          · split
            · exact destroy_settled hr hleaves c i out hm'
            · exact settled_of_asks hr hleaves hm' (Serving.Asks.throw _)
      · split
        · have hdelegate : Serving.Asks Call.IsLookup
              (Serving.ask (.delegate (nested request c cursor)) : Serving (Memory E) E I _) :=
            Serving.Asks.ask trivial
          exact settled_of_asks hr hleaves hm' hdelegate
        · exact settled_of_asks hr hleaves hm' (Serving.Asks.throw _)

/-- What a part of serving leaves behind that does not succeed: what was stored before, or, if an
entity was to be created, that and an entity for which no body can be made. -/
theorem perform_settled :
    let o := Serving.outcome (r.answer routers) (r.perform request n out) m
    Settled es o ∨ (request.method = "POST" ∧ request.routing.left = [] ∧
      StoredUnrendered k r routers request n out m o.2) := by
  unfold perform
  cases hleft : request.routing.left with
  | nil =>
      simp only [PathCursor.shift, hleft]
      exact (serveCollection_settled hr hleaves request n out hm).imp id fun h => ⟨h.1, trivial, h.2⟩
  | cons segment left =>
      simp only [PathCursor.shift, hleft]
      exact Or.inl (serveResource_settled hr hleaves request n out hm _ _)

end Operations

/-! ## Responses -/

/-- Every request gets a response, also if something panics on the way. A failed request leaves the
entities as they were, but for one case: an entity that was to be created has been stored, and then no
body could be made for it. -/
theorem entities_of_failed_request (k : Identity E I) (r : Resource (Memory E) E I)
    (hr : r.operations = Memory.operations k) (hleaves : LeavesEntities r)
    (routers : NodeId → Service (Memory E)) (request : Request) (m : Memory E) :
    ∃ response m', Act.outcome (r.handler.serve routers request) m = (.ok response, m') ∧
      (400 ≤ response.status → m'.entities = m.entities ∨
        (request.method = "POST" ∧ request.routing.left = [] ∧
          StoredUnrendered k r routers request (.forRequest request.headers r.codecs)
            (.forResponse request.headers r.codecs (.forRequest request.headers r.codecs)) m m')) := by
  have hsettled : let o := Serving.outcome (r.answer routers) (r.perform request
      (.forRequest request.headers r.codecs) (.forResponse request.headers r.codecs
        (.forRequest request.headers r.codecs))) m
      Settled m.entities o ∨ _ := perform_settled hr hleaves request _ _ rfl
  have hserve := r.outcome_serve (r.answer routers) request m
  simp only at hserve hsettled
  generalize Serving.outcome (r.answer routers) (r.perform request
    (.forRequest request.headers r.codecs) (.forResponse request.headers r.codecs
      (.forRequest request.headers r.codecs))) m = o at hserve hsettled
  obtain ⟨_ | _ | _, m'⟩ := o
  case error p =>
    have hservice : Act.outcome (r.service routers request) m = (.error p, m') := hserve
    obtain ⟨response, hresponse⟩ := Handler.outcome_recovering_panic hservice
    refine ⟨response, m', hresponse, fun _ => hsettled.imp_left fun h => ?_⟩
    exact h.resolve_right fun ⟨_, hok, _⟩ => by cases hok
  case ok.error e =>
    obtain ⟨response, hrendered⟩ := r.outcome_renderError (r.answer routers) e _ request.path m'
    have hservice : Act.outcome (r.service routers request) m = (.ok response, m') :=
      hserve.trans hrendered
    refine ⟨response, m', Handler.outcome_recovering_ok hservice,
      fun _ => hsettled.imp_left fun h => ?_⟩
    exact h.resolve_right fun ⟨_, hok, _⟩ => by cases hok
  case ok.ok response =>
    have hservice : Act.outcome (r.service routers request) m = (.ok response, m') := hserve
    refine ⟨response, m', Handler.outcome_recovering_ok hservice, fun hfailed => ?_⟩
    refine hsettled.imp_left fun h => h.resolve_right fun ⟨_, hok, hlt⟩ => ?_
    cases hok
    omega

/-! ## A failed creation -/

def documents : Resource (Memory Json) Json String :=
  { Resource.plain .text with operations := Memory.operations Sample.Doc.identity }

def arrayAsForm : Request :=
  ⟨"POST", ⟨none, none, "/", none⟩, [("accept", Utf8.encode Media.form)], [.ok (Utf8.encode "[]")],
    .empty⟩

theorem entities_of_failed_request_documents :
    LeavesEntities documents ∧ ∃ response m',
      Act.outcome (documents.handler.serve (fun _ _ => .panic .other) arrayAsForm) .empty =
        (.ok response, m') ∧
      (400 ≤ response.status → m'.entities = (Memory.empty : Memory Json).entities ∨
        (arrayAsForm.method = "POST" ∧ arrayAsForm.routing.left = [] ∧
          StoredUnrendered Sample.Doc.identity documents (fun _ _ => .panic .other) arrayAsForm
            (.forRequest arrayAsForm.headers documents.codecs)
            (.forResponse arrayAsForm.headers documents.codecs
              (.forRequest arrayAsForm.headers documents.codecs)) .empty m')) := by
  have hleaves : LeavesEntities documents := leavesEntities_of_none rfl rfl rfl
  exact ⟨hleaves, entities_of_failed_request Sample.Doc.identity documents rfl hleaves
    (fun _ _ => .panic .other) arrayAsForm .empty⟩

/-- The array is stored, and then the request fails because an array is no form. -/
theorem failed_creation_changes_entities : ∃ response m',
    Act.outcome (documents.handler.serve (fun _ _ => .panic .other) arrayAsForm) .empty =
      (.ok response, m') ∧
    400 ≤ response.status ∧ m'.entities ≠ (Memory.empty : Memory Json).entities := by
  have hrun : (match Act.outcome (documents.handler.serve (fun _ _ => .panic .other) arrayAsForm)
      .empty with
    | (.ok response, m') => (response.status, m'.entities.length)
    | (.error _, _) => (0, 0)) = (500, 1) := by decide +kernel
  generalize Act.outcome (documents.handler.serve (fun _ _ => .panic .other) arrayAsForm) .empty = o
    at hrun
  obtain ⟨p | response, m'⟩ := o
  · cases hrun
  · injection hrun with hstatus hlength
    refine ⟨response, m', rfl, by omega, fun hnil => ?_⟩
    rw [hnil] at hlength
    cases hlength

end WebResource.Resource
