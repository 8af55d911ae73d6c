import WebResource.Proofs.Resource.Body
import WebResource.Proofs.Resource.Confinement
import WebResource.Proofs.Trace

namespace WebResource.Resource

/-!
# What comes before a mutation

Whatever operations, hooks and nested routes a resource has, and however they end, it asks for an
operation only after its hook has let the request pass, under the context of the hook, and stores only
what it has received as a whole. This is said of all that has been asked at any moment, so it does not
matter where the serving of a request ends: with a response, with a panic of whatever it runs, or when
nobody waits for it any more.
-/

variable {S E I α β : Type}

/-- The calls that are operations of the resource itself. -/
def Call.operates : Call S E I → Bool
  | .create _ _ | .index _ | .find _ _ | .update _ _ | .destroy _ _ | .destroyAll _ => true
  | _ => false

/-- Calls and how they have been answered. -/
abbrev Calls (S E I : Type) := List (Prog.Exchange (Call S E I) Call.Answer)

section Conditions

variable (r : Resource S E I) (request : Request) (past : Calls S E I)

/-- The answers that a resource can give to itself. -/
def Answers (routers : NodeId → Service S) (q : Call S E I) (a : Except Payload q.Answer) : Prop :=
  (r.answer routers q).Ends a

/-- The hook for the collection has let the request pass, with a context. -/
structure CollectionOpen (c : Context) : Prop where
  routed : request.routing.shift.1 = none
  prepared : ⟨.prepareCollection (context request), .ok (.ok c)⟩ ∈ past
  unhooked : r.collectionHook = none → c = context request

/-- The path of the request has an identifier, and the hook for it has let the request pass, with a
context. The cursor stands behind the identifier. -/
def EntityOpen (cursor : PathCursor) (i : I) (c : Context) : Prop :=
  ∃ raw, request.routing.shift = (some raw, cursor) ∧
    let segment := Percent.decodeSegment raw
    let given := r.resourceContext request segment i
    r.ids.parse segment = .ok i ∧ ⟨.prepareResource given i, .ok (.ok c)⟩ ∈ past ∧
      (r.resourceHook = none → c = given)

/-- The whole body has been read, and an entity has been made of it. -/
def Received (c : Context) (e : E) : Prop :=
  ∃ (pieces : List Bytes) (document : Json),
    request.chunks = pieces.map .ok ∧ pieces.flatten.length ≤ r.bodyReadLimit ∧
      let n := MediaCodec.forRequest request.headers r.codecs
      n.codec.unmarshal pieces.flatten = .ok document ∧
        (r.mappings.get n.mediaType).ofDocument c document = .ok e

/-- An entity has been found to exist, if that can be found out. -/
def Shown (c : Context) (i : I) : Prop :=
  r.operations.find.isSome → ∃ e, ⟨.find c i, .ok (.ok (some e))⟩ ∈ past

/-- What allows a call after others. -/
def Allowed : Call S E I → Prop
  | .create c e =>
    r.operations.create.isSome ∧ r.CollectionOpen request past c ∧ r.Received request c e
  | .index c => r.operations.index.isSome ∧ r.CollectionOpen request past c
  | .destroyAll c => r.operations.destroyAll.isSome ∧ r.CollectionOpen request past c
  | .find c i => r.operations.find.isSome ∧
    ∃ cursor, cursor.isExhausted = true ∧ r.EntityOpen request past cursor i c
  | .update c e => r.operations.update.isSome ∧
    ∃ cursor i received, cursor.isExhausted = true ∧ r.EntityOpen request past cursor i c ∧
      r.Received request c received ∧ r.idLens.set i received = .ok e ∧ r.Shown past c i
  | .destroy c i => r.operations.destroy.isSome ∧
    ∃ cursor, cursor.isExhausted = true ∧ r.EntityOpen request past cursor i c ∧ r.Shown past c i
  | .delegate below => r.routes.isSome ∧
    ∃ cursor i c, cursor.isExhausted = false ∧ r.EntityOpen request past cursor i c ∧
      below = nested request c cursor
  | .prepareCollection _ | .prepareResource _ _ => past = []
  | .release _ => True

/-- Nothing has been changed so far. -/
def Unchanged : Prop := ∀ e ∈ past, e.question.mutates = false

/-- A call is allowed, and it changes something only if nothing has been changed so far. -/
def Gate (q : Call S E I) : Prop :=
  r.Allowed request past q ∧ (q.mutates = true → Unchanged past)

end Conditions

variable {r : Resource S E I} {routers : NodeId → Service S} {request : Request}
  {past past' : Calls S E I} {post : Calls S E I → α → Prop} {post' : Calls S E I → β → Prop}

/-! ## Parts of serving a request -/

namespace Serving

/-- A part of serving a request that passes the gate with each of its calls. -/
def Gated (r : Resource S E I) (routers : NodeId → Service S) (request : Request)
    (post : Calls S E I → α → Prop) (past : Calls S E I) (x : Serving S E I α) : Prop :=
  Prog.Guarded (r.Answers routers) (r.Gate request)
    (fun past result => ∀ a, result = .ok a → post past a) past x.run

namespace Gated

theorem pure {a : α} (h : post past a) : Gated r routers request post past (Pure.pure a) := by
  apply Prog.Guarded.done
  intro b hb
  obtain rfl := Except.ok.inj hb
  exact h

theorem throw (e : ApiError) : Gated r routers request post past (MonadExcept.throw e) := by
  apply Prog.Guarded.done
  intro b hb
  cases hb

theorem bind {x : Serving S E I α} {f : α → Serving S E I β}
    (hx : Gated r routers request post past x)
    (hf : ∀ past a, post past a → Gated r routers request post' past (f a)) :
    Gated r routers request post' past (x >>= f) := by
  apply Prog.Guarded.bind hx
  intro past result hresult
  cases result with
  | error e => exact throw e
  | ok a => exact hf past a (hresult a rfl)

/-- A part without calls leaves it to the rest what has been asked. -/
theorem quiet_bind {x : Serving S E I α} {f : α → Serving S E I β} (hx : Asks (fun _ => False) x)
    (hf : ∀ a, Gated r routers request post' past (f a)) :
    Gated r routers request post' past (x >>= f) := by
  apply Prog.Guarded.bind (Prog.Guarded.of_asks_nothing hx)
  rintro past' result rfl
  cases result with
  | error e => exact throw e
  | ok a => exact hf a

theorem quiet {x : Serving S E I α} (hx : Asks (fun _ => False) x) :
    Gated r routers request (fun _ _ => True) past x := by
  apply (Prog.Guarded.of_asks_nothing hx).mono
  intro _ _ _ _ _
  trivial

theorem ask_bind {q : Call S E I} {f : q.Answer → Serving S E I α} (hq : r.Gate request past q)
    (hf : ∀ a, r.Answers routers q (.ok a) →
      Gated r routers request post (past ++ [⟨q, .ok a⟩]) (f a)) :
    Gated r routers request post past (ask q >>= f) := by
  apply Prog.Guarded.ask hq
  intro a ha
  cases a with
  | error p => exact .panic p
  | ok a => exact hf a ha

theorem ofExcept_bind {x : Except ApiError α} {f : α → Serving S E I β}
    (hf : ∀ a, x = .ok a → Gated r routers request post' past (f a)) :
    Gated r routers request post' past (ofExcept x >>= f) := by
  cases x with
  | error e => exact throw e
  | ok a => exact hf a rfl

theorem mapped_bind {toError : String → ApiError} {x : Mapped α} {f : α → Serving S E I β}
    (hf : ∀ a, x = .ok a → Gated r routers request post' past (f a)) :
    Gated r routers request post' past (mapped toError x >>= f) := by
  cases x with
  | ok a => exact hf a rfl
  | refused why => exact throw _
  | panicked p => exact .panic p

theorem persisted_error (e : StorageError) :
    Gated r routers request (fun _ _ => False) past (persisted (.error e) : Serving S E I α) := by
  unfold persisted
  simp only
  split
  · exact bind (quiet (.tell _)) fun _ _ _ => throw _
  · exact throw _

theorem persisted_bind {x : Except StorageError α} {f : α → Serving S E I β}
    (hf : ∀ a, x = .ok a → Gated r routers request post' past (f a)) :
    Gated r routers request post' past (persisted x >>= f) := by
  cases x with
  | ok a => exact hf a rfl
  | error e => exact bind (persisted_error e) fun _ _ h => h.elim

theorem check {p : Prop} [Decidable p] {e : ApiError} {k : Unit → Serving S E I α}
    (h : ¬p → Gated r routers request post past (k ())) :
    Gated r routers request post past (if p then MonadExcept.throw e >>= k else k ()) := by
  split
  · exact throw e
  · next hp => exact h hp

end Gated

end Serving

open Serving

/-! ## What has been asked so far -/

theorem Unchanged.append {e : Prog.Exchange (Call S E I) Call.Answer} (h : Unchanged past)
    (he : e.question.mutates = false) : Unchanged (past ++ [e]) := by
  intro e' he'
  rcases List.mem_append.mp he' with he' | he'
  · exact h e' he'
  · obtain rfl := List.mem_singleton.mp he'
    exact he

theorem unchanged_singleton {e : Prog.Exchange (Call S E I) Call.Answer}
    (he : e.question.mutates = false) : Unchanged [e] := by
  intro e' he'
  obtain rfl := List.mem_singleton.mp he'
  exact he

theorem EntityOpen.mono {cursor : PathCursor} {i : I} {c : Context}
    (h : r.EntityOpen request past cursor i c) (hpast : past ⊆ past') :
    r.EntityOpen request past' cursor i c := by
  obtain ⟨raw, hshift, hid, hprepared, hhook⟩ := h
  exact ⟨raw, hshift, hid, hpast hprepared, hhook⟩

section Operations

variable {c : Context} {i : I} {cursor : PathCursor} (out : MediaCodec)

/-- The document of a request is a part of what is received with it. -/
theorem received {document : Json} {e : E}
    (hdocument : readDocument r.bodyReadLimit request
      (MediaCodec.forRequest request.headers r.codecs) = .ok document)
    (he : (r.mappings.get (MediaCodec.forRequest request.headers r.codecs).mediaType).ofDocument c
      document = .ok e) : r.Received request c e := by
  obtain ⟨body, hbody, hmade⟩ := readDocument_eq_ok_iff.mp hdocument
  obtain ⟨-, pieces, hchunks, rfl, hlength⟩ := readBody_eq_ok_iff.mp hbody
  exact ⟨pieces, document, hchunks, hlength, hmade, he⟩

theorem create_gated (hopen : r.CollectionOpen request past c) (hpast : Unchanged past) :
    Gated r routers request (fun _ _ => True) past
      (r.create c request (MediaCodec.forRequest request.headers r.codecs) out) := by
  unfold create
  apply Gated.check
  intro hoffered
  apply Gated.ofExcept_bind
  intro document hdocument
  apply Gated.mapped_bind
  intro e he
  apply Gated.ask_bind
  · refine ⟨⟨?_, hopen, received hdocument he⟩, fun _ => hpast⟩
    simpa [Option.isSome_iff_ne_none] using hoffered
  · intro answer _
    apply Gated.quiet_bind (.persisted _)
    intro created
    exact Gated.quiet (r.entityResponse_asks c out 201 created)

theorem release_bind {f : Unit → Serving S E I α} (release : S → S)
    (hf : ∀ u, Asks (fun _ => False) (f u)) :
    Gated r routers request (fun _ _ => True) past (ask (.release release) >>= f) := by
  apply Gated.ask_bind
  · exact ⟨trivial, nofun⟩
  · intro u _
    exact Gated.quiet (hf u)

theorem index_gated (hopen : r.CollectionOpen request past c) :
    Gated r routers request (fun _ _ => True) past (r.index c out) := by
  unfold index
  apply Gated.check
  intro hoffered
  split
  · exact Gated.throw _
  · apply Gated.ask_bind
    · refine ⟨⟨?_, hopen⟩, nofun⟩
      simpa [Option.isSome_iff_ne_none] using hoffered
    · intro stream _
      split
      · exact Gated.pure trivial
      · exact release_bind _ fun _ => .pure _
      · exact release_bind _ fun _ => (Asks.logs _).bind fun _ => .throw _
      · exact release_bind _ fun _ => .panic _

theorem destroyAll_gated (hopen : r.CollectionOpen request past c) (hpast : Unchanged past) :
    Gated r routers request (fun _ _ => True) past (r.destroyAll c out) := by
  unfold destroyAll
  apply Gated.check
  intro hoffered
  apply Gated.ask_bind
  · refine ⟨⟨?_, hopen⟩, fun _ => hpast⟩
    simpa [Option.isSome_iff_ne_none] using hoffered
  · intro answer _
    exact Gated.quiet ((Asks.persisted _).bind fun _ => .pure _)

theorem find_gate (hoffered : r.operations.find.isSome) (hend : cursor.isExhausted = true)
    (hopen : r.EntityOpen request past cursor i c) : r.Gate request past (.find c i) :=
  ⟨⟨hoffered, cursor, hend, hopen⟩, nofun⟩

/-- What is required to exist has been shown, if anything can be. -/
theorem requireExisting_gated (hend : cursor.isExhausted = true)
    (hopen : r.EntityOpen request past cursor i c) (hpast : Unchanged past) :
    Gated r routers request
      (fun past' _ => r.EntityOpen request past' cursor i c ∧ Unchanged past' ∧ r.Shown past' c i)
      past (r.requireExisting c i) := by
  unfold requireExisting
  split
  · next hoffered =>
      apply Gated.ask_bind (find_gate hoffered hend hopen)
      intro answer _
      apply Gated.persisted_bind
      intro found hfound
      split
      · next e =>
          apply Gated.pure
          refine ⟨hopen.mono (List.subset_append_left _ _), hpast.append rfl, fun _ => ⟨e, ?_⟩⟩
          rw [← hfound]
          exact List.mem_append_right _ List.mem_cons_self
      · exact Gated.throw _
  · next hoffered =>
      apply Gated.pure
      exact ⟨hopen, hpast, fun h => absurd h hoffered⟩

theorem show_gated (hend : cursor.isExhausted = true) (hopen : r.EntityOpen request past cursor i c) :
    Gated r routers request (fun _ _ => True) past (r.show c i out) := by
  unfold «show»
  apply Gated.check
  intro hoffered
  apply Gated.ask_bind (find_gate ?_ hend hopen)
  · intro answer _
    apply Gated.quiet_bind (.persisted _)
    intro found
    split
    · exact Gated.quiet (r.entityResponse_asks c out 200 _)
    · exact Gated.throw _
  · simpa [Option.isSome_iff_ne_none] using hoffered

theorem update_gated (hend : cursor.isExhausted = true)
    (hopen : r.EntityOpen request past cursor i c) (hpast : Unchanged past) :
    Gated r routers request (fun _ _ => True) past
      (r.update c i request (MediaCodec.forRequest request.headers r.codecs) out) := by
  unfold update
  apply Gated.check
  intro hoffered
  apply Gated.ofExcept_bind
  intro document hdocument
  apply Gated.bind (requireExisting_gated hend hopen hpast)
  rintro past ⟨⟩ ⟨hopen, hpast, hshown⟩
  apply Gated.mapped_bind
  intro before hbefore
  cases he : r.idLens.set i before with
  | error x => exact Gated.throw _
  | ok e =>
      apply Gated.ask_bind
      · refine ⟨⟨?_, cursor, i, before, hend, hopen, received hdocument hbefore, he, hshown⟩,
          fun _ => hpast⟩
        simpa [Option.isSome_iff_ne_none] using hoffered
      · intro answer _
        exact Gated.quiet ((Asks.persistedFor _ _).bind fun _ => .pure _)

theorem destroy_gated (hend : cursor.isExhausted = true)
    (hopen : r.EntityOpen request past cursor i c) (hpast : Unchanged past) :
    Gated r routers request (fun _ _ => True) past (r.destroy c i out) := by
  unfold destroy
  apply Gated.check
  intro hoffered
  apply Gated.bind (requireExisting_gated hend hopen hpast)
  rintro past ⟨⟩ ⟨hopen, hpast, hshown⟩
  apply Gated.ask_bind
  · refine ⟨⟨?_, cursor, hend, hopen, hshown⟩, fun _ => hpast⟩
    simpa [Option.isSome_iff_ne_none] using hoffered
  · intro answer _
    exact Gated.quiet ((Asks.persistedFor _ _).bind fun _ => .pure _)

end Operations

/-! ## The hooks -/

/-- Without a hook the context stays as it is. -/
theorem answers_prepareCollection {c c' : Context} (hhook : r.collectionHook = none)
    (h : r.Answers routers (.prepareCollection c) (.ok (.ok c'))) : c' = c := by
  rw [Answers, answer, hhook] at h
  cases h
  rfl

theorem answers_prepareResource {c c' : Context} {i : I} (hhook : r.resourceHook = none)
    (h : r.Answers routers (.prepareResource c i) (.ok (.ok c'))) : c' = c := by
  rw [Answers, answer, hhook] at h
  cases h
  rfl

theorem serveCollection_gated (hrouted : request.routing.shift.1 = none) (out : MediaCodec) :
    Gated r routers request (fun _ _ => True) []
      (r.serveCollection request (MediaCodec.forRequest request.headers r.codecs) out) := by
  unfold serveCollection
  apply Gated.ask_bind
  · exact ⟨rfl, nofun⟩
  intro answer hanswer
  apply Gated.ofExcept_bind
  rintro c rfl
  have hopen : r.CollectionOpen request [_] c :=
    ⟨hrouted, List.mem_cons_self, fun hhook => answers_prepareCollection hhook hanswer⟩
  have hpast := unchanged_singleton (S := S) (E := E) (I := I)
    (e := ⟨.prepareCollection (context request), .ok (.ok c)⟩) rfl
  split
  · exact create_gated out hopen hpast
  · split
    · exact index_gated out hopen
    · split
      · exact destroyAll_gated out hopen hpast
      · exact Gated.throw _

theorem serveResource_gated {raw : String} {cursor : PathCursor}
    (hrouted : request.routing.shift = (some raw, cursor)) (out : MediaCodec) :
    Gated r routers request (fun _ _ => True) []
      (r.serveResource request (Percent.decodeSegment raw) cursor
        (MediaCodec.forRequest request.headers r.codecs) out) := by
  unfold serveResource
  split
  · exact Gated.throw _
  next i hid =>
  apply Gated.ask_bind
  · exact ⟨rfl, nofun⟩
  intro answer hanswer
  apply Gated.ofExcept_bind
  rintro c rfl
  have hopen : r.EntityOpen request [_] cursor i c :=
    ⟨raw, hrouted, hid, List.mem_cons_self, fun hhook => answers_prepareResource hhook hanswer⟩
  have hpast := unchanged_singleton (S := S) (E := E)
    (e := ⟨.prepareResource (r.resourceContext request (Percent.decodeSegment raw) i) i, .ok (.ok c)⟩) rfl
  split
  · next hend =>
      split
      · exact show_gated out hend hopen
      · split
        · exact update_gated out hend hopen hpast
        · split
          · exact destroy_gated out hend hopen hpast
          · exact Gated.throw _
  · next hmore =>
      split
      · next hroutes =>
          have hgate : r.Gate request _ (.delegate (nested request c cursor)) :=
            ⟨⟨hroutes, cursor, i, c, Bool.eq_false_iff.mpr hmore, hopen, rfl⟩, nofun⟩
          have hasks : Gated r routers request (fun _ _ => True) _
              (ask (.delegate (nested request c cursor)) >>= fun a => Pure.pure a) :=
            Gated.ask_bind hgate fun a _ => Gated.pure trivial
          rwa [bind_pure] at hasks
      · exact Gated.throw _

theorem perform_gated (out : MediaCodec) :
    Gated r routers request (fun _ _ => True) []
      (r.perform request (MediaCodec.forRequest request.headers r.codecs) out) := by
  unfold perform
  split
  · next cursor hshift => exact serveCollection_gated (by rw [hshift]) out
  · next raw cursor hshift => exact serveResource_gated hshift out

theorem serve_guarded :
    Prog.Guarded (r.Answers routers) (r.Gate request) (fun _ _ => True) [] (r.serve request) := by
  apply Prog.Guarded.bind (perform_gated _)
  intro past result _
  cases result with
  | ok response => exact .done trivial
  | error e =>
      apply Prog.Guarded.log
      exact (Prog.Guarded.of_asks_nothing (r.renderError_asks e _ _)).mono fun _ _ _ => trivial

/-! ## All calls -/

/-- A resource whose hook names the owner of an entity. -/
def owned : Resource Unit Json String :=
  { (Resource.plain .text : Resource Unit Json String) with
    operations := { (Operations.none : Operations Unit Json String) with
      find := some fun _ i => .done (.ok (some (.obj [("id", .str i)])))
      update := some fun _ _ => .done (.ok ()) }
    resourceHook := some fun c i => .done (.ok (c.withParam "owner" i)) }

def replacing : Request where
  method := "PUT"
  uri := ⟨none, none, "/a", none⟩
  headers := []
  chunks := [.ok [0x7B], .ok [0x7D]]
  attributes := { Attributes.empty with routing := some ⟨"/a", [], ["a"]⟩ }

end WebResource.Resource
