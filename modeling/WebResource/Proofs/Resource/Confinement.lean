import WebResource.Proofs.Prog
import WebResource.Resource.Handler

namespace WebResource.Resource

/-!
# Requests for one entity

Whatever a request for one entity makes a resource ask for, it asks for the entity whose identifier
stands in the path: for its hook, and for the operations on it.
-/

variable {S E I α β : Type} {P : Call S E I → Prop}

/-- What may be asked for the entity with an identifier: nothing that is about another one, about
the collection or about nested routes. -/
def Call.Concerns (lens : IdLens E I) (i : I) : Call S E I → Prop
  | .find _ j => j = i
  | .update _ e => ∃ before, lens.set i before = .ok e
  | .destroy _ j => j = i
  | .prepareResource _ j => j = i
  | _ => False

namespace Serving

/-- A part of serving a request that asks only for what is allowed. -/
def Asks (P : Call S E I → Prop) (x : Serving S E I α) : Prop := Prog.Asks P x.run

namespace Asks

theorem pure (a : α) : Asks P (Pure.pure a : Serving S E I α) := Prog.Asks.done _

theorem throw (e : ApiError) : Asks P (MonadExcept.throw e : Serving S E I α) := Prog.Asks.done _

theorem bind {x : Serving S E I α} {f : α → Serving S E I β} (hx : Asks P x)
    (hf : ∀ a, Asks P (f a)) : Asks P (x >>= f) := by
  refine Prog.Asks.bind hx fun a => ?_
  cases a with
  | error e => exact Prog.Asks.done _
  | ok a => exact hf a

theorem tell (r : LogRecord) : Asks P (Serving.tell r : Serving S E I Unit) :=
  .log r (.done _)

theorem logs (rs : List LogRecord) : Asks P (rs.forM Serving.tell : Serving S E I PUnit) := by
  induction rs with
  | nil => exact pure _
  | cons r rs ih => exact bind (tell r) fun _ => ih

theorem panic (p : Payload) : Asks P (Serving.panic p : Serving S E I α) := Prog.Asks.panic p

theorem ask {q : Call S E I} (hq : P q) : Asks P (Serving.ask q) :=
  Prog.Asks.bind (Prog.Asks.call hq) fun _ => .done _

theorem ofExcept (r : Except ApiError α) : Asks P (Serving.ofExcept r : Serving S E I α) := by
  cases r with
  | error e => exact throw e
  | ok a => exact pure a

theorem mapped (toError : String → ApiError) (r : Mapped α) :
    Asks P (Serving.mapped toError r : Serving S E I α) := by
  cases r with
  | ok a => exact pure a
  | refused why => exact throw _
  | panicked p => exact panic p

theorem check {p : Prop} [Decidable p] {e : ApiError} {k : Unit → Serving S E I α}
    (h : Asks P (k ())) : Asks P (if p then MonadExcept.throw e >>= k else k ()) := by
  split
  · exact bind (throw e) fun _ => h
  · exact h

theorem persisted (r : Except StorageError α) :
    Asks P (Serving.persisted r : Serving S E I α) := by
  cases r with
  | ok a => exact pure a
  | error e =>
      unfold Serving.persisted
      simp only
      split
      · exact bind (tell _) fun _ => throw _
      · exact throw _

theorem persistedFor (description : String) (r : Except StorageError α) :
    Asks P (Serving.persistedFor description r : Serving S E I α) := by
  cases r with
  | ok a => exact pure a
  | error e =>
      unfold Serving.persistedFor
      simp only
      split
      · exact throw _
      · exact persisted _

end Asks

end Serving

open Serving

section Entity

variable (r : Resource S E I) (c : Context) (i : I) (request : Request) (n out : MediaCodec)

theorem entityResponse_asks (status : Nat) (e : E) : Asks P (r.entityResponse c status e out) := by
  refine Asks.bind (Asks.mapped _ _) fun document => ?_
  split
  · exact Asks.pure _
  · exact Asks.throw _

theorem requireExisting_asks (hfind : P (.find c i)) : Asks P (r.requireExisting c i) := by
  unfold requireExisting
  split
  · refine Asks.bind (Asks.ask hfind) fun answer => Asks.bind (Asks.persisted _) fun found => ?_
    split
    · exact Asks.pure _
    · exact Asks.throw _
  · exact Asks.pure _

theorem show_asks (hfind : P (.find c i)) : Asks P (r.show c i out) := by
  unfold «show»
  refine Asks.check ?_
  refine Asks.bind (Asks.ask hfind) fun answer => Asks.bind (Asks.persisted _) fun found => ?_
  split
  · exact r.entityResponse_asks c out 200 _
  · exact Asks.throw _

theorem update_asks (hfind : P (.find c i)) (hupdate : ∀ before e, r.idLens.set i before = .ok e →
    P (.update c e)) : Asks P (r.update c i request n out) := by
  unfold update
  refine Asks.check ?_
  refine Asks.bind (Asks.ofExcept _) fun document =>
    Asks.bind (r.requireExisting_asks c i hfind) fun _ => Asks.bind (Asks.mapped _ _) fun before => ?_
  cases he : r.idLens.set i before with
  | error x => exact Asks.throw _
  | ok e =>
      exact Asks.bind (Asks.ask (hupdate before e he)) fun answer =>
        Asks.bind (Asks.persistedFor _ _) fun _ => Asks.pure _

theorem destroy_asks (hfind : P (.find c i)) (hdestroy : P (.destroy c i)) :
    Asks P (r.destroy c i out) := by
  unfold destroy
  refine Asks.check ?_
  exact Asks.bind (r.requireExisting_asks c i hfind) fun _ =>
    Asks.bind (Asks.ask hdestroy) fun _ => Asks.bind (Asks.persistedFor _ _) fun _ => Asks.pure _

/-- A request for an entity, and for nothing below it, concerns that entity only. -/
theorem serveResource_asks {segment : String} {cursor : PathCursor}
    (hid : r.ids.parse segment = .ok i) (hcursor : cursor.isExhausted = true) :
    Asks (Call.Concerns r.idLens i) (r.serveResource request segment cursor n out) := by
  unfold serveResource
  rw [hid]
  refine Asks.bind (Asks.ask (q := .prepareResource _ i) rfl) fun answer =>
    Asks.bind (Asks.ofExcept _) fun c => ?_
  rw [if_pos hcursor]
  split
  · exact r.show_asks c i out rfl
  · split
    · exact r.update_asks c i request n out rfl fun before e he => ⟨before, he⟩
    · split
      · exact r.destroy_asks c i out rfl rfl
      · exact Asks.throw _

end Entity

theorem renderError_asks (r : Resource S E I) (e : ApiError) (out : MediaCodec)
    (instanceUri : String) : Prog.Asks P (r.renderError e out instanceUri) := by
  unfold renderError
  split
  · exact .done _
  · exact .logs _ (.done _)

/-- What is asked for to render an error is nothing, so all that is asked for is asked for by the
part of serving that may fail. -/
theorem serve_asks {r : Resource S E I} {request : Request}
    (h : ∀ n out, Asks P (r.perform request n out)) : Prog.Asks P (r.serve request) := by
  refine Prog.Asks.bind (h _ _) fun answer => ?_
  cases answer with
  | ok response => exact .done _
  | error e => exact .log _ (r.renderError_asks e _ _)

theorem serve_entity_asks {r : Resource S E I} {request : Request} {i : I} {uri : String}
    {passed : List String} {segment : String}
    (hrouting : request.routing = ⟨uri, passed, [segment]⟩)
    (hid : r.ids.parse (Percent.decodeSegment segment) = .ok i) :
    Prog.Asks (Call.Concerns r.idLens i) (r.serve request) := by
  refine serve_asks fun n out => ?_
  simp only [perform, hrouting, PathCursor.shift]
  exact r.serveResource_asks i request n out hid rfl

/-! ## Requests for the collection -/

theorem destroyAll_eq {r : Resource S E I} (h : r.operations.destroyAll.isSome = true) (c : Context)
    (out : MediaCodec) : r.destroyAll c out = (do
      persisted (← ask (.destroyAll c))
      return noContent out) := by
  unfold destroyAll
  rw [if_neg (by simpa [Option.isSome_iff_ne_none] using h)]

/-- A request to delete the collection asks for all entities to be destroyed, if that is offered. -/
theorem destroyAll_of_serve_asks {r : Resource S E I} {request : Request} {uri : String}
    {passed : List String} (hrouting : request.routing = ⟨uri, passed, []⟩)
    (hmethod : request.method = "DELETE") (hoffered : r.operations.destroyAll.isSome = true)
    (h : Prog.Asks P (r.serve request)) : P (.destroyAll (context request)) := by
  have hperform (n out : MediaCodec) : r.perform request n out = (do
      let c ← Serving.ofExcept (← ask (.prepareCollection (context request)))
      persisted (← ask (.destroyAll c))
      return noContent out) := by
    simp only [perform, hrouting, PathCursor.shift, serveCollection, hmethod]
    simp only [destroyAll_eq hoffered, if_pos]
    rfl
  simp only [serve, hperform] at h
  obtain ⟨-, hprepared⟩ := Prog.Asks.of_ask h
  exact (Prog.Asks.of_ask (hprepared (.ok (.ok (context request))))).1

end WebResource.Resource
