import WebResource.Proofs.Contract
import WebResource.Proofs.Resource.Confinement

namespace WebResource.Resource

/-!
# What a resource asks for

A resource asks only for entities to be stored that its mapping has made of documents, under the context
of the mapping, and releases only what it has been given. If all that lies behind it takes only allowed
steps under these conditions, so does the resource.
-/

variable {S E I α β : Type}

/-- Entities are stored only where they fit the context, and a stream is released by an allowed step. -/
def Call.contract (I : Type) (fits : Context → E → Prop) (step : (S → S) → Prop) :
    Prog.Contract (Call S E I) Call.Answer where
  asks
    | .create c e => fits c e
    | .update c e => fits c e
    | .release f => step f
    | _ => True
  grants
    | .index _, stream => step stream.release
    | _, _ => True

/-- The context of a call, if it has one. -/
def Call.context? : Call S E I → Option Context
  | .create c _ => some c
  | .index c => some c
  | .find c _ => some c
  | .update c _ => some c
  | .destroy c _ => some c
  | .destroyAll c => some c
  | .prepareCollection c => some c
  | .prepareResource c _ => some c
  | .delegate _ => none
  | .release _ => none

/-- A hook prepares a context for the calls that follow. -/
def Call.Prepares (c : Context) : (q : Call S E I) → q.Answer → Prop
  | .prepareCollection _, answer => answer = .ok c
  | .prepareResource _ _, answer => answer = .ok c
  | _, _ => False

/-- A contract under which all calls are made in good contexts, as long as hooks prepare good ones. -/
def Call.under (good : Context → Prop) (C : Prog.Contract (Call S E I) Call.Answer) :
    Prog.Contract (Call S E I) Call.Answer where
  asks q := (∀ c, q.context? = some c → good c) ∧ C.asks q
  grants q answer := (∀ c, q.Prepares c answer → good c) ∧ C.grants q answer

namespace Serving

variable {C : Prog.Contract (Call S E I) Call.Answer}

def Meets (C : Prog.Contract (Call S E I) Call.Answer) (x : Serving S E I α) : Prop :=
  Prog.Meets C (fun _ => True) x.run

namespace Meets

theorem of_asks {x : Serving S E I α} (h : Asks C.asks x) : Meets C x := Prog.Meets.of_asks h

theorem bind {x : Serving S E I α} {f : α → Serving S E I β} (hx : Meets C x)
    (hf : ∀ a, Meets C (f a)) : Meets C (x >>= f) := by
  refine Prog.Meets.bind hx fun a _ => ?_
  cases a with
  | error e => exact .done trivial
  | ok a => exact hf a

theorem asks_bind {x : Serving S E I α} {f : α → Serving S E I β} (hx : Asks C.asks x)
    (hf : ∀ a, Meets C (f a)) : Meets C (x >>= f) :=
  bind (of_asks hx) hf

theorem ask_bind {q : Call S E I} {f : q.Answer → Serving S E I α} (hq : C.asks q)
    (hf : ∀ a, C.grants q a → Meets C (f a)) : Meets C (ask q >>= f) := by
  refine .ask hq (fun p => .panic p) fun a ha => ?_
  exact hf a ha

theorem mapped_bind {toError : String → ApiError} {x : Mapped α} {f : α → Serving S E I β}
    (hf : ∀ a, x = .ok a → Meets C (f a)) : Meets C (mapped toError x >>= f) := by
  cases x with
  | ok a => exact hf a rfl
  | refused why => exact of_asks (.throw _)
  | panicked p => exact of_asks (.panic p)

theorem ofExcept_bind {x : Except ApiError α} {f : α → Serving S E I β}
    (hf : ∀ a, x = .ok a → Meets C (f a)) : Meets C (Serving.ofExcept x >>= f) := by
  cases x with
  | error e => exact of_asks (.throw e)
  | ok a => exact hf a rfl

theorem check {p : Prop} [Decidable p] {e : ApiError} {k : Unit → Serving S E I α}
    (h : Meets C (k ())) : Meets C (if p then MonadExcept.throw e >>= k else k ()) := by
  split
  · exact of_asks (.throw e)
  · exact h

end Meets

end Serving

open Serving

/-- The entities of a resource fit the context under which they are made of documents, whatever
identifier they are given. -/
structure MakesFit (r : Resource S E I) (fits : Context → E → Prop) : Prop where
  made : ∀ c mediaType document e,
    (r.mappings.get mediaType).ofDocument c document = .ok e → fits c e
  identified : ∀ c i before e, fits c before → r.idLens.set i before = .ok e → fits c e

/-- Nothing is asked for to render an error. -/
theorem meets_of_perform {C : Prog.Contract (Call S E I) Call.Answer} {r : Resource S E I}
    {request : Request} (h : ∀ n out, Serving.Meets C (r.perform request n out)) :
    Prog.Meets C (fun _ => True) (r.serve request) := by
  refine Prog.Meets.bind (h _ _) fun answer _ => ?_
  cases answer with
  | ok response => exact .done trivial
  | error e => exact .log _ (.of_asks (r.renderError_asks e _ _))

/-- The methods of requests that may store an entity. -/
def Writes (method : String) : Prop := method = "POST" ∨ method = "PUT" ∨ method = "PATCH"

section Meets

variable {r : Resource S E I} {good : Context → Prop} {fits : Context → E → Prop} {step : (S → S) → Prop}
  {c : Context} (hc : good c) (i : I) (request : Request) (n out : MediaCodec)

theorem under_asks {C : Prog.Contract (Call S E I) Call.Answer} {q : Call S E I} (hc : good c)
    (hcontext : q.context? = some c) (hq : C.asks q) : (Call.under good C).asks q := by
  refine ⟨fun c' hc' => ?_, hq⟩
  rw [hcontext] at hc'
  cases hc'
  exact hc

section

include hc

theorem create_meets (h : r.MakesFit fits) :
    Serving.Meets (Call.under good (Call.contract I fits step)) (r.create c request n out) := by
  unfold create
  refine Meets.check ?_
  refine Meets.asks_bind (Asks.ofExcept _) fun document => Meets.mapped_bind fun e he => ?_
  refine Meets.ask_bind (under_asks hc rfl (h.made c _ document e he)) fun answer _ => ?_
  exact Meets.asks_bind (Asks.persisted _) fun created => .of_asks (r.entityResponse_asks c out 201 created)

theorem update_meets (h : r.MakesFit fits) :
    Serving.Meets (Call.under good (Call.contract I fits step)) (r.update c i request n out) := by
  unfold update
  refine Meets.check ?_
  refine Meets.asks_bind (Asks.ofExcept _) fun document =>
    Meets.asks_bind (r.requireExisting_asks c i (under_asks hc rfl trivial)) fun _ =>
      Meets.mapped_bind fun before hbefore => ?_
  cases he : r.idLens.set i before with
  | error x => exact .of_asks (.throw _)
  | ok e =>
      have hfits : fits c e := h.identified c i before e (h.made c _ document before hbefore) he
      refine Meets.ask_bind (under_asks hc rfl hfits) fun answer _ => ?_
      exact .of_asks ((Asks.persistedFor _ _).bind fun _ => .pure _)

/-- The stream of entities is released as it says itself. -/
theorem index_meets : Serving.Meets (Call.under good (Call.contract I fits step)) (r.index c out) := by
  unfold index
  refine Meets.check ?_
  split
  · exact .of_asks (.throw _)
  · refine Meets.ask_bind (under_asks hc rfl trivial) fun stream hrelease => ?_
    have hask : Asks (Call.under good (Call.contract I fits step)).asks (ask (.release stream.release)) :=
      .ask ⟨fun _ h => (nomatch h), hrelease.2⟩
    split
    · exact .of_asks (.pure _)
    · exact .of_asks (hask.bind fun _ => .pure _)
    · exact .of_asks (hask.bind fun _ => (Asks.logs _).bind fun _ => .throw _)
    · exact .of_asks (hask.bind fun _ => .panic _)

theorem destroyAll_meets :
    Serving.Meets (Call.under good (Call.contract I fits step)) (r.destroyAll c out) := by
  unfold destroyAll
  refine Meets.check (.of_asks ?_)
  exact (Asks.ask (under_asks hc rfl trivial)).bind fun _ => (Asks.persisted _).bind fun _ => .pure _

end

variable (h : Writes request.method → r.MakesFit fits)

include h

theorem serveCollection_meets (hgood : good (context request)) :
    Serving.Meets (Call.under good (Call.contract I fits step)) (r.serveCollection request n out) := by
  unfold serveCollection
  refine Meets.ask_bind (under_asks hgood rfl trivial) fun answer hanswer => ?_
  refine Meets.ofExcept_bind fun c hprepared => ?_
  have hc : good c := hanswer.1 c hprepared
  split
  · next hmethod => exact create_meets hc request n out (h (Or.inl hmethod))
  · split
    · exact index_meets hc out
    · split
      · exact destroyAll_meets hc out
      · exact .of_asks (.throw _)

theorem serveResource_meets (hgood : ∀ segment i, good (r.resourceContext request segment i))
    (segment : String) (cursor : PathCursor) :
    Serving.Meets (Call.under good (Call.contract I fits step))
      (r.serveResource request segment cursor n out) := by
  unfold serveResource
  split
  · exact .of_asks (.throw _)
  · next i hid =>
      refine Meets.ask_bind (under_asks (hgood segment i) rfl trivial) fun answer hanswer => ?_
      refine Meets.ofExcept_bind fun c hprepared => ?_
      have hc : good c := hanswer.1 c hprepared
      split
      · split
        · exact .of_asks (r.show_asks c i out (under_asks hc rfl trivial))
        · split
          · next hmethod => exact update_meets hc i request n out (h (Or.inr hmethod))
          · split
            · exact .of_asks (r.destroy_asks c i out (under_asks hc rfl trivial) (under_asks hc rfl trivial))
            · exact .of_asks (.throw _)
      · split
        · exact .of_asks (.ask ⟨fun _ h => (nomatch h), trivial⟩)
        · exact .of_asks (.throw _)

theorem perform_meets (hgood : good (context request))
    (hentity : ∀ segment i, good (r.resourceContext request segment i)) :
    Serving.Meets (Call.under good (Call.contract I fits step)) (r.perform request n out) := by
  unfold perform
  split
  · exact serveCollection_meets request n out h hgood
  · exact serveResource_meets request n out h hentity _ _

/-- A resource makes its calls in good contexts if hooks are called in good ones and prepare good ones. It
asks for entities to be stored only to serve a request that may store some. -/
theorem serve_meets (hgood : good (context request))
    (hentity : ∀ segment i, good (r.resourceContext request segment i)) :
    Prog.Meets (Call.under good (Call.contract I fits step)) (fun _ => True) (r.serve request) :=
  meets_of_perform fun n out => perform_meets request n out h hgood hentity

end Meets

/-! ## Requests for what is nested below an entity -/

/-- The hook is called in a good context, and the request is passed on in the one that it prepares. -/
def Call.nesting (good : Context → Prop) (request : Request) (cursor : PathCursor) :
    Prog.Contract (Call S E I) Call.Answer where
  asks
    | .prepareResource c _ => good c
    | .delegate passed => ∃ c, good c ∧ passed = nested request c cursor
    | _ => False
  grants q answer := ∀ c, q.Prepares c answer → good c

theorem serve_nested_meets {r : Resource S E I} {good : Context → Prop} {request : Request}
    {uri segment s : String} {passed left : List String}
    (hrouting : request.routing = ⟨uri, passed, segment :: s :: left⟩)
    (hentity : ∀ i, good (r.resourceContext request (Percent.decodeSegment segment) i)) :
    Prog.Meets (Call.nesting good request ⟨uri, passed ++ [segment], s :: left⟩) (fun _ => True)
      (r.serve request) := by
  have hperform (n out : MediaCodec) :
      Serving.Meets (Call.nesting good request ⟨uri, passed ++ [segment], s :: left⟩)
        (r.perform request n out) := by
    simp only [perform, hrouting, PathCursor.shift, serveResource]
    split
    · exact .of_asks (.throw _)
    · next i hid =>
        refine Meets.ask_bind (hentity i) fun answer hanswer => ?_
        refine Meets.ofExcept_bind fun c hprepared => ?_
        have hc : good c := hanswer c hprepared
        rw [if_neg (by simp [PathCursor.isExhausted])]
        split
        · exact .of_asks (.ask ⟨c, hc, rfl⟩)
        · exact .of_asks (.throw _)
  exact meets_of_perform hperform

/-! ## Steps -/

/-- A resource over operations, hooks and nested routes that take only allowed steps takes only
allowed steps. -/
theorem service_asks {r : Resource S E I} {fits : Context → E → Prop} {step : (S → S) → Prop}
    (h : r.MakesFit fits) (request : Request) {routers : NodeId → Service S}
    (hanswer : ∀ q, (Call.contract I fits step).asks q → Prog.Meets (.plain step)
      ((Call.contract I fits step).grants q) (r.answer routers q)) :
    Prog.Asks step (r.service routers request) := by
  have hserve : Prog.Meets (Call.under (fun _ => True) (Call.contract I fits step)) (fun _ => True)
      (r.serve request) := serve_meets request (fun _ => h) trivial fun _ _ => trivial
  refine (hserve.interpret fun q hq => ?_).asks
  exact (hanswer q hq.2).mono fun answer hgrants => ⟨fun _ _ => trivial, hgrants⟩

end WebResource.Resource
