import WebResource.Proofs.Document
import WebResource.Proofs.Problem
import WebResource.Proofs.Resource.Atomicity
import WebResource.Sample.Entities

namespace WebResource

/-!
# Requests side by side

The calls of a repository that serve one request may stand between those that serve others. The requests
are served in the order of their last calls, as long as each replacement keeps to the entity that its
path names. One that does not may replace an entity after the one in its path has been deleted.
-/

namespace Pool

variable {Q α : Type} {R : Q → Type} (x y z : Prog Q R α)

/-- Two programs side by side. -/
def pair : Pool Q R α Bool := fun b => bif b then x else y

theorem pair_eq (p : Pool Q R α Bool) : pair (p true) (p false) = p := by
  funext b
  cases b <;> rfl

theorem update_pair_true : Function.update (pair x y) true z = pair z y := by
  funext b
  cases b <;> rfl

theorem update_pair_false : Function.update (pair x y) false z = pair x z := by
  funext b
  cases b <;> rfl

end Pool

namespace Resource

variable {E I : Type} [DecidableEq I] {k : Identity E I} {r : Resource (Memory E) E I}
  {routers : NodeId → Service (Memory E)} {m m' : Memory E}

/-! ## Entities that have vanished -/

/-- A replacement takes the place of an entity under the same identifier. -/
theorem find_update_of_none (e : E) {i : I} (hm : m.find k i = none) :
    (Memory.update k e m).2.find k i = none := by
  unfold Memory.update
  cases hid : k.id e with
  | none => exact hm
  | some j =>
      simp only
      cases hreplaced : Repository.replaceFirst (Memory.hasId k j) e m.entities with
      | none => exact hm
      | some es =>
          have hj : j ≠ i := by
            rintro rfl
            have hnone := (Repository.replaceFirst_eq_none_iff e).mpr (find_eq_none_iff.mp hm)
            rw [hnone] at hreplaced
            cases hreplaced
          rw [find_eq_none_iff] at hm ⊢
          intro e' he'
          rcases Repository.mem_replaceFirst hreplaced he' with rfl | he'
          · simpa [Memory.hasId, hid] using hj
          · exact hm e' he'

theorem find_delete_of_none (j : I) {i : I} (hm : m.find k i = none) :
    (Memory.delete k j m).2.find k i = none := by
  unfold Memory.delete
  simp only
  split
  · exact hm
  · rw [find_eq_none_iff] at hm ⊢
    intro e he
    exact hm e (List.mem_filter.mp he).1

/-- No call but a creation makes an entity appear under an identifier. -/
theorem find_of_answer (h : OverMemory k r) {q : Call (Memory E) E I} (hproper : q.Proper r routers)
    (hq : ∀ c e, q ≠ .create c e) {i : I} (hm : m.find k i = none) :
    (Act.outcome (r.answer routers q) m).2.find k i = none := by
  cases hstorage : q.isStorage with
  | false =>
      obtain ⟨a, ha⟩ := h.answer_other hproper hstorage
      obtain ⟨n, hcontent⟩ := Memory.content_eq_iff.mp (ha m).2.symm
      rw [hcontent]
      exact hm
  | true =>
      cases q with
      | create c e => exact absurd rfl (hq c e)
      | index c =>
          rw [outcome_answer_index h.operations]
          exact hm
      | find c j =>
          rw [outcome_answer_find h.operations]
          exact hm
      | update c e =>
          rw [outcome_answer_update h.operations]
          exact find_update_of_none e hm
      | destroy c j =>
          rw [outcome_answer_destroy h.operations]
          exact find_delete_of_none j hm
      | destroyAll c =>
          rw [outcome_answer_destroyAll h.operations]
          rfl
      | prepareCollection c => cases hstorage
      | prepareResource c j => cases hstorage
      | delegate request => cases hstorage
      | release f => cases hstorage

/-! ## Concurrent requests -/

section Concurrent

variable {ι : Type} [DecidableEq ι]

/-- What comes of each of some requests that is served alone. -/
def serveAlone (r : Resource (Memory E) E I) (routers : NodeId → Service (Memory E))
    (requests : ι → Request) (i : ι) (m : Memory E) : Except Payload (Response (Memory E)) × Memory E :=
  Act.outcome (r.handler.serve routers (requests i)) m

/-- The requests in the order of their last calls on the repository. -/
abbrev callOrder (σ : List (ι × Call (Memory E) E I)) : List ι := Pool.order Call.isStorage σ

/-- Requests that are served side by side, first with the calls `σ` and then with the calls `τ`, as if
each were served as a whole at the moment of its last call on the repository. -/
structure ServedInOrder (r : Resource (Memory E) E I) (routers : NodeId → Service (Memory E))
    (requests : ι → Request) (responses : ι → Response (Memory E)) (m₀ m₁ : Memory E)
    (σ τ : List (ι × Call (Memory E) E I)) : Prop where
  /-- Between `σ` and `τ`, what is stored is what the requests leave behind that make no more call. -/
  stored : m₁.content = (Pool.inTurn (serveAlone r routers requests)
    ((callOrder (σ ++ τ)).filter (· ∉ Pool.callers Call.isStorage τ)) m₀).content
  response : ∀ before i after, callOrder (σ ++ τ) = before ++ i :: after →
    (serveAlone r routers requests i
      (Pool.inTurn (serveAlone r routers requests) before m₀)).1 = .ok (responses i)
  /-- A request that makes no call at all gets the same response at any time, and changes nothing. -/
  elsewhere : ∀ i, i ∉ callOrder (σ ++ τ) → ∀ m,
    (serveAlone r routers requests i m).1 = .ok (responses i) ∧
      (serveAlone r routers requests i m).2.content = m.content

/-- However some requests are served side by side, they are served in order. -/
def InOrder (r : Resource (Memory E) E I) (routers : NodeId → Service (Memory E))
    (requests : ι → Request) : Prop :=
  ∀ m₀ m₁ m σ τ p p' responses,
    Pool.Run (r.answer routers) (fun i => r.recovered (requests i)) m₀ σ p m₁ →
      Pool.Run (r.answer routers) p m₁ τ p' m → (∀ i, p' i = .done (responses i)) →
        ServedInOrder r routers requests responses m₀ m₁ σ τ

variable {requests : ι → Request} {m₀ m₁ : Memory E} {σ τ : List (ι × Call (Memory E) E I)}
  {p p' : Pool (Call (Memory E) E I) Call.Answer (Response (Memory E)) ι}

theorem alone_recovered (h : OverMemory k r) (request : Request) :
    (h.shared routers).alone (r.recovered request) =
      Act.outcome (r.handler.serve routers request) := by
  funext m
  exact congrArg (Act.outcome · m) (interpret_recovered r routers request)

theorem inOrder_of_keepsToPath (h : OverMemory k r) (hsteady : ∀ i, r.Steady routers (requests i))
    (hkeeps : ∀ i, KeepsToPath k r (requests i)) : InOrder r routers requests := by
  intro m₀ m₁ m σ τ p p' responses hσ hτ hend
  have hatomic (i : ι) : (h.shared routers).ActsAtOnce (r.recovered (requests i)) :=
    recovered_actsAtOnce h (requests i) (hsteady i) (hkeeps i)
  have hended (i : ι) : p' i = .ofExcept (.ok (responses i)) := hend i
  obtain ⟨hstored, hresponse, helsewhere⟩ :=
    Pool.Run.serial (w := h.shared routers) hσ hτ hended hatomic
  simp only [alone_recovered h] at hstored hresponse helsewhere
  refine ⟨hstored, fun before i after horder => (hresponse before i after horder).symm,
    fun i hi m => ?_⟩
  have hsame := helsewhere i (fun hcalls => hi (Pool.mem_order.mpr hcalls)) m
  exact ⟨hsame.result, hsame.view⟩

omit [DecidableEq I] in
/-- Every run goes on until there is a response to every request. -/
theorem exists_responses [Finite ι]
    (hσ : Pool.Run (r.answer routers) (fun i => r.recovered (requests i)) m₀ σ p m₁) :
    ∃ τ p' m', ∃ responses : ι → Response (Memory E),
      Pool.Run (r.answer routers) p m₁ τ p' m' ∧ ∀ i, p' i = .done (responses i) := by
  obtain ⟨τ, p', m', results, hτ, hend⟩ := Pool.Run.exists_end (r.answer routers) p m₁
  have hok (i : ι) : ∃ response, results i = .ok response := by
    cases hresult : results i with
    | ok response => exact ⟨response, rfl⟩
    | error e =>
        refine absurd ?_ ((hσ.append hτ).never (not_ends_recovered r (requests i) e))
        rw [hend i, hresult]
        exact .panic e
  choose responses hresponses using hok
  refine ⟨τ, p', m', responses, hτ, fun i => ?_⟩
  rw [hend i, hresponses i]
  rfl

/-- What has vanished does not come back unless it is created again. -/
theorem find_of_run (h : OverMemory k r) (hsteady : ∀ i, r.Steady routers (requests i))
    (hσ : Pool.Run (r.answer routers) (fun i => r.recovered (requests i)) m₀ σ p m₁)
    (hτ : Pool.Run (r.answer routers) p m₁ τ p' m) (hcreate : ∀ j c e, (j, .create c e) ∉ τ) {i : I}
    (hm : m₁.find k i = none) : m.find k i = none := by
  have hproper : ∀ j, (h.shared routers).Proper (p j) :=
    Pool.Run.proper hσ fun j => recovered_proper h (requests j) (hsteady j)
  refine Pool.Run.invariant (w := h.shared routers) (fun m => m.find k i = none)
    (fun q => ∀ c e, q ≠ .create c e) hτ hproper ?_ ?_ hm
  · rintro ⟨j, q⟩ hcall c e rfl
    exact hcreate j c e hcall
  · intro q m hq hnot hnone
    exact find_of_answer h hq hnot hnone

end Concurrent

/-! ## Replacements that do not keep to their path -/

section Racing

variable {request : Request} {q : Call (Memory E) E I} {α : Type}

omit [DecidableEq I] in
theorem finish_ask_bind (f : q.Answer → Serving (Memory E) E I (Response (Memory E))) :
    r.finish request (Serving.ask q >>= f) = .ask q fun
      | .ok a => r.finish request (f a)
      | .error p => r.finish request (Serving.panic p) := by
  rw [finish, run_ask_bind]
  refine congrArg (Prog.ask q) (funext fun a => ?_)
  cases a <;> rfl

section Steps

variable {f : q.Answer → Serving (Memory E) E I (Response (Memory E))} {a : q.Answer}
  {σ : List (Bool × Call (Memory E) E I)}
  {x : Prog (Call (Memory E) E I) Call.Answer (Response (Memory E))} {m₁ : Memory E}
  {p' : Pool (Call (Memory E) E I) Call.Answer (Response (Memory E)) Bool}

omit [DecidableEq I] in
theorem run_pair_true (ha : Act.outcome (r.answer routers q) m = (.ok a, m'))
    (hrun : Pool.Run (r.answer routers) (Pool.pair (r.finish request (f a)) x) m' σ p' m₁) :
    Pool.Run (r.answer routers) (Pool.pair (r.finish request (Serving.ask q >>= f)) x) m
      ((true, q) :: σ) p' m₁ := by
  refine .ask true (finish_ask_bind f) ?_
  rw [ha, Pool.update_pair_true]
  exact hrun

omit [DecidableEq I] in
theorem run_pair_false (ha : Act.outcome (r.answer routers q) m = (.ok a, m'))
    (hrun : Pool.Run (r.answer routers) (Pool.pair x (r.finish request (f a))) m' σ p' m₁) :
    Pool.Run (r.answer routers) (Pool.pair x (r.finish request (Serving.ask q >>= f))) m
      ((false, q) :: σ) p' m₁ := by
  refine .ask false (finish_ask_bind f) ?_
  rw [ha, Pool.update_pair_false]
  exact hrun

theorem alone_finish_ask (h : OverMemory k r) (ha : Act.outcome (r.answer routers q) m = (.ok a, m')) :
    (h.shared routers).alone (r.finish request (Serving.ask q >>= f)) m =
      (h.shared routers).alone (r.finish request (f a)) m' := by
  have hreply : (h.shared routers).reply q m = (.ok a, m') := ha
  rw [finish_ask_bind, Shared.alone_ask, hreply]

theorem alone_finish_throw (h : OverMemory k r) (e : ApiError) :
    (h.shared routers).alone (r.finish request (throw e)) m =
      (.ok (r.renderedError e (.forResponseTo request.headers r.codecs) request.path), m) := by
  have hconcluded : (h.shared routers).alone (r.concluded request (.error e)) m =
      (.ok (r.renderedError e (.forResponseTo request.headers r.codecs) request.path), m) :=
    outcome_renderError_eq r (r.answer routers) e _ request.path m
  change (h.shared routers).alone ((r.concluded request (.error e)).attempt.bind (caught request)) m = _
  rw [Shared.alone_bind, Shared.alone_attempt, hconcluded]
  rfl

end Steps

/-- A request for an entity, with one to delete the same. -/
def besideDeletion (request : Request) (replaces : Bool) : Request :=
  bif replaces then request else { request with method := "DELETE" }

/-- A resource of which no error looks like the success of a replacement. -/
def TellsErrors (r : Resource (Memory E) E I) : Prop :=
  ∀ render, r.errorHandler = some render → ∀ e out uri, (render e out uri).status ≠ 204

omit [DecidableEq I] in
theorem TellsErrors.status_ne (htells : r.TellsErrors) (e : ApiError) (out : MediaCodec) (uri : String) :
    (r.renderedError e out uri).status ≠ 204 := by
  rw [renderedError]
  cases herror : r.errorHandler with
  | some render => exact htells render herror e out uri
  | none =>
      change ((e.render out uri).2 : Response (Memory E)).status ≠ 204
      rw [ApiError.status_render]
      cases e.kind <;> decide

section Programs

variable {cursor : PathCursor} {i : I} {c : Context} {n out : MediaCodec}

omit [DecidableEq I] in
theorem perform_of_replacing (haddresses : r.Addresses request cursor i c)
    (hend : cursor.isExhausted = true) (hmethod : request.method = "PUT" ∨ request.method = "PATCH") :
    r.perform request n out = Serving.ask (.prepareResource c i) >>= fun prepared =>
      Serving.ofExcept prepared >>= fun c => r.update c i request n out := by
  obtain ⟨raw, hshift, hparse, rfl⟩ := haddresses
  have hget : request.method ≠ "GET" := by rcases hmethod with hmethod | hmethod <;> simp [hmethod]
  simp only [perform, hshift, serveResource, hparse, if_pos hend, if_neg hget, if_pos hmethod]

omit [DecidableEq I] in
theorem perform_of_deleting (haddresses : r.Addresses request cursor i c)
    (hend : cursor.isExhausted = true) :
    r.perform (besideDeletion request false) n out = Serving.ask (.prepareResource c i) >>=
      fun prepared => Serving.ofExcept prepared >>= fun c => r.destroy c i out := by
  obtain ⟨raw, hshift, hparse, rfl⟩ := haddresses
  change (besideDeletion request false).routing.shift = _ at hshift
  simp only [perform, hshift, serveResource, hparse, if_pos hend]
  rfl

theorem update_eq_ifFound (h : OverMemory k r) {e : E} (he : r.Replacement c i request n e) :
    r.update c i request n out = Serving.ask (.find c i) >>= r.ifFound i (do
      Serving.persistedFor (r.idText i) (← Serving.ask (.update c e))
      return noContent out) := by
  rw [update_of_replacement h c i request n out he,
    requireExisting_bind c i (by simp [h.operations, Memory.operations])]

theorem destroy_eq_ifFound (h : OverMemory k r) :
    r.destroy c i out = Serving.ask (.find c i) >>= r.ifFound i (do
      Serving.persistedFor (r.idText i) (← Serving.ask (.destroy c i))
      return noContent out) := by
  rw [← requireExisting_bind c i (by simp [h.operations, Memory.operations]), destroy, h.operations]
  rfl

end Programs

omit [DecidableEq I] in
theorem outcome_answer_prepareResource (hr : r.resourceHook = none) (c : Context) (i : I) :
    Act.outcome (r.answer routers (.prepareResource c i)) m = (.ok (.ok c), m) := by
  simp [answer, hr]

section Race

variable {i j : I} {e e' : E}

section Answers

variable (h : OverMemory k r) (c : Context)

include h

theorem outcome_find_first (he' : k.id e' = some i) {es : List E} :
    Act.outcome (r.answer routers (.find c i)) { m with entities := e' :: es } =
      (.ok (.ok (some e')), { m with entities := e' :: es }) := by
  rw [outcome_answer_find h.operations]
  simp [Memory.find, Memory.hasId, he']

theorem outcome_find_other (hid : k.id e = some j) (hne : j ≠ i) :
    Act.outcome (r.answer routers (.find c i)) { m with entities := [e] } =
      (.ok (.ok none), { m with entities := [e] }) := by
  rw [outcome_answer_find h.operations]
  simp [Memory.find, Memory.hasId, hid, hne]

theorem outcome_destroy_first (hid : k.id e = some j) (he' : k.id e' = some i) (hne : j ≠ i) :
    Act.outcome (r.answer routers (.destroy c i)) { m with entities := [e', e] } =
      (.ok (.ok ()), { m with entities := [e] }) := by
  rw [outcome_answer_destroy h.operations]
  simp [Memory.delete, Memory.hasId, hid, he', hne]

theorem outcome_update_only (hid : k.id e = some j) :
    Act.outcome (r.answer routers (.update c e)) { m with entities := [e] } =
      (.ok (.ok ()), { m with entities := [e] }) := by
  rw [outcome_answer_update h.operations]
  simp [Memory.update, Memory.hasId, Repository.replaceFirst, hid]

end Answers

variable (routers m) in
/-- The replacement looks its entity up before that is deleted, and replaces another one after that. -/
theorem exists_race (h : OverMemory k r) (he : r.Replaces request i e) (hid : k.id e = some j)
    (he' : k.id e' = some i) (hne : j ≠ i) :
    ∃ σ, Pool.Run (r.answer routers) (fun b => r.recovered (besideDeletion request b))
        { m with entities := [e', e] } σ
        (fun _ => .done (noContent (.forResponseTo request.headers r.codecs)))
        { m with entities := [e] } ∧
      callOrder σ = [false, true] := by
  obtain ⟨hmethod, cursor, c, haddresses, hend, hreplacement⟩ := he
  have hprepare {m : Memory E} : Act.outcome (r.answer routers (.prepareResource c i)) m = _ :=
    outcome_answer_prepareResource h.resourceHook c i
  refine ⟨[(true, .prepareResource c i), (true, .find c i), (false, .prepareResource c i),
    (false, .find c i), (false, .destroy c i), (true, .update c e)], ?_, rfl⟩
  rw [← Pool.pair_eq fun b => r.recovered (besideDeletion request b), ← Pool.pair_eq fun _ => .done _]
  change Pool.Run _ (Pool.pair (r.recovered request) (r.recovered (besideDeletion request false))) _ _ _ _
  rw [recovered, perform_of_replacing haddresses hend hmethod, recovered,
    perform_of_deleting haddresses hend]
  refine run_pair_true hprepare ?_
  change Pool.Run _ (Pool.pair (r.finish request (r.update c i request _ _)) _) _ _ _ _
  rw [update_eq_ifFound h hreplacement]
  refine run_pair_true (outcome_find_first h c he') (run_pair_false hprepare ?_)
  change Pool.Run _ (Pool.pair _ (r.finish _ (r.destroy c i _))) _ _ _ _
  rw [destroy_eq_ifFound h]
  refine run_pair_false (outcome_find_first h c he') ?_
  refine run_pair_false (outcome_destroy_first h c hid he' hne) ?_
  exact run_pair_true (outcome_update_only h c hid) (.refl _ _)

variable (routers m) in
/-- After the deletion, the replacement alone finds nothing under its path. -/
theorem serveAlone_after_deletion (h : OverMemory k r) (he : r.Replaces request i e)
    (hid : k.id e = some j) (he' : k.id e' = some i) (hne : j ≠ i) :
    ∃ error, (serveAlone r routers (besideDeletion request) true
      (serveAlone r routers (besideDeletion request) false { m with entities := [e', e] }).2).1 =
        .ok (r.renderedError error (.forResponseTo request.headers r.codecs) request.path) := by
  obtain ⟨hmethod, cursor, c, haddresses, hend, hreplacement⟩ := he
  have hdeletion : serveAlone r routers (besideDeletion request) false { m with entities := [e', e] } =
      (.ok (noContent (.forResponseTo request.headers r.codecs)), { m with entities := [e] }) := by
    rw [serveAlone, ← alone_recovered h, recovered,
      perform_of_deleting haddresses hend,
      alone_finish_ask h (outcome_answer_prepareResource h.resourceHook c i)]
    change (h.shared routers).alone (r.finish _ (r.destroy c i _)) _ = _
    rw [destroy_eq_ifFound h, alone_finish_ask h (outcome_find_first h c he')]
    exact alone_finish_ask h (outcome_destroy_first h c hid he' hne)
  refine ⟨⟨.entityNotFound, r.idText i⟩, ?_⟩
  rw [hdeletion, serveAlone, ← alone_recovered h, besideDeletion, cond_true, recovered,
    perform_of_replacing haddresses hend hmethod,
    alone_finish_ask h (outcome_answer_prepareResource h.resourceHook c i)]
  change ((h.shared routers).alone (r.finish request (r.update c i request _ _)) _).1 = _
  rw [update_eq_ifFound h hreplacement, alone_finish_ask h (outcome_find_other h c hid hne)]
  exact congrArg Prod.fst (alone_finish_throw h _)

/-- A replacement under one identifier of what is found by another is not served in order beside a
deletion. -/
theorem not_inOrder_of_replaces (h : OverMemory k r) (htells : r.TellsErrors)
    (he : r.Replaces request i e) (hid : k.id e = some j) (he' : k.id e' = some i) (hne : j ≠ i) :
    ¬InOrder r routers (besideDeletion request) := by
  intro horder
  obtain ⟨σ, hrun, hcalls⟩ := exists_race routers Memory.empty h he hid he' hne
  have hserved := horder _ _ _ σ [] _ _ _ hrun (.refl _ _) fun _ => rfl
  obtain ⟨error, herror⟩ := serveAlone_after_deletion routers Memory.empty h he hid he' hne
  have hresponse := hserved.response [false] true [] (by rw [List.append_nil, hcalls]; rfl)
  have hsame := Except.ok.inj (herror.symm.trans hresponse)
  apply htells.status_ne error (.forResponseTo request.headers r.codecs) request.path
  rw [hsame]
  rfl

end Race

theorem keepsToPath_of_inOrder (h : OverMemory k r) (htells : r.TellsErrors)
    (horder : InOrder r routers (besideDeletion request)) : KeepsToPath k r request := by
  intro i e j he hid hknown
  obtain ⟨e', he'⟩ := hknown
  by_contra hne
  exact not_inOrder_of_replaces h htells he hid he' hne horder

end Racing

/-- What holds of requests that a resource over entities in memory serves side by side, call by call. -/
structure ServesSideBySide (k : Identity E I) (r : Resource (Memory E) E I)
    (routers : NodeId → Service (Memory E)) : Prop where
  /-- Every run goes on until there is a response to each request. -/
  responds : ∀ {ι : Type} [DecidableEq ι] [Finite ι] (requests : ι → Request) m₀ m₁ σ p,
    Pool.Run (r.answer routers) (fun i => r.recovered (requests i)) m₀ σ p m₁ →
      ∃ τ p' m, ∃ responses : ι → Response (Memory E),
        Pool.Run (r.answer routers) p m₁ τ p' m ∧ ∀ i, p' i = .done (responses i)
  /-- However it goes on, the requests are served in the order of their last calls, if each replacement
  keeps to its path. -/
  inOrder : ∀ {ι : Type} [DecidableEq ι] (requests : ι → Request),
    (∀ i, r.Steady routers (requests i)) → (∀ i, KeepsToPath k r (requests i)) →
      InOrder r routers requests
  /-- A replacement that does not keep to its path is not served in order beside a deletion. -/
  keepsToPath : ∀ request, r.TellsErrors → InOrder r routers (besideDeletion request) →
    KeepsToPath k r request
  /-- What has vanished does not come back unless it is created again. -/
  vanished : ∀ {ι : Type} [DecidableEq ι] (requests : ι → Request) m₀ m₁ m σ τ p p' i,
    (∀ i, r.Steady routers (requests i)) →
      Pool.Run (r.answer routers) (fun i => r.recovered (requests i)) m₀ σ p m₁ →
        Pool.Run (r.answer routers) p m₁ τ p' m → (∀ j c e, (j, .create c e) ∉ τ) →
          m₁.find k i = none → m.find k i = none

/-- Requests that are served side by side, call by call, are served as if one after another, as long as
each replacement keeps to its path. -/
theorem serve_interleaved (h : OverMemory k r) (routers : NodeId → Service (Memory E)) :
    ServesSideBySide k r routers where
  responds _ _ _ _ _ hσ := exists_responses hσ
  inOrder _ hsteady hkeeps := inOrder_of_keepsToPath h hsteady hkeeps
  keepsToPath _ htells horder := keepsToPath_of_inOrder h htells horder
  vanished _ _ _ _ _ _ _ _ _ hsteady hσ hτ hcreate hm := find_of_run h hsteady hσ hτ hcreate hm

/-! ## Replacements of documents that race with deletions -/

section Documents

/-- Documents that are given their identifiers in a field. The repository finds them by the field `id`. -/
def catalog (field : String) : Resource (Memory Json) Json String :=
  { Resource.new .identity (.byField field) .text with
    operations := Memory.operations Sample.Doc.identity }

theorem overMemory_catalog (field : String) : OverMemory Sample.Doc.identity (catalog field) where
  operations := rfl
  collectionHook := rfl
  resourceHook := rfl

theorem assigns_catalog : Assigns Sample.Doc.identity (catalog "id") := by
  intro i j before e hset hid
  change IdLens.setField "id" i before = .ok e at hset
  change Sample.Doc.id e = some j at hid
  cases before with
  | obj fs =>
      obtain ⟨fs', hread⟩ : ∃ fs', IdLens.setField "id" i (Json.obj fs) =
          .ok (Json.obj (Json.insertField "id" (.str i) fs')) := ⟨_, rfl⟩
      rw [hread] at hset
      obtain rfl := Except.ok.inj hset
      rw [Sample.Doc.id, Json.get?, Json.findField_insertField] at hid
      exact (Option.some.inj hid).symm
  | null => cases hset
  | bool b => cases hset
  | int n => cases hset
  | float x => cases hset
  | str s => cases hset
  | arr vs => cases hset

/-- A request to replace the document `a` by one that names `b`. -/
def misnamed : Request where
  method := "PUT"
  uri := ⟨none, none, "/a", none⟩
  headers := []
  chunks := [.ok [0x7B, 0x22, 0x69, 0x64, 0x22, 0x3A, 0x22, 0x62, 0x22, 0x7D]]
  attributes := { Attributes.empty with routing := some ⟨"/a", [], ["a"]⟩ }

def noRouters : NodeId → Service (Memory Json) := fun _ _ => .panic .other

/-- The documents `a` and `b`. -/
def twoEntries : Memory Json := ⟨[.obj [("id", .str "a")], .obj [("id", .str "b")]], 1, 0, none⟩

/-- Both requests find the document `a`, then it is deleted, and then there is none to be replaced. -/
theorem run_racing : ∃ σ p m,
    Pool.Run ((catalog "id").answer noRouters)
        (fun b => (catalog "id").recovered (besideDeletion misnamed b)) twoEntries σ p m ∧
      callOrder σ = [false, true] ∧ (∃ response, p true = .done response ∧ response.status = 404) ∧
      ∃ response, p false = .done response ∧ response.status = 204 := by
  refine ⟨_, _, _, .ask true rfl (.ask true rfl (.ask false rfl (.ask false rfl
    (.ask false rfl (.ask true rfl (.log true rfl (.refl _ _))))))), rfl, ?_, ?_⟩
  · exact ⟨_, rfl, rfl⟩
  · exact ⟨_, rfl, rfl⟩

theorem serve_interleaved_racing :
    OverMemory Sample.Doc.identity (catalog "id") ∧ Assigns Sample.Doc.identity (catalog "id") ∧
      ∃ σ m, ∃ responses : Bool → Response _,
        (catalog "id").ServedInOrder noRouters (besideDeletion misnamed) responses twoEntries m σ [] ∧
        callOrder σ = [false, true] ∧ (responses true).status = 404 ∧
        (responses false).status = 204 := by
  obtain ⟨σ, p, m, hrun, hcalls, ⟨replaced, hreplaced, h404⟩, deleted, hdeleted, h204⟩ := run_racing
  have hend : ∀ b, p b = .done (bif b then replaced else deleted) := by
    intro b
    cases b with
    | true => exact hreplaced
    | false => exact hdeleted
  have hover := overMemory_catalog "id"
  have hinOrder := (serve_interleaved hover noRouters).inOrder (besideDeletion misnamed)
    (fun _ => steady_of_none _ rfl) fun _ => keepsToPath_of_assigns _ assigns_catalog
  exact ⟨hover, assigns_catalog, σ, m, _, hinOrder _ _ _ σ [] p p _ hrun (.refl p m) hend, hcalls, h404,
    h204⟩

/-- The same requests where the identifier in the path is assigned to another field: the document `b` is
replaced after `a` has been deleted. In that order, there would be nothing to be replaced. -/
theorem replacement_after_deletion :
    OverMemory Sample.Doc.identity (catalog "name") ∧
      (∀ b, (catalog "name").Steady noRouters (besideDeletion misnamed b)) ∧
      ∃ σ p m, ∃ responses : Bool → Response _,
        Pool.Run ((catalog "name").answer noRouters)
            (fun b => (catalog "name").recovered (besideDeletion misnamed b)) twoEntries σ p m ∧
        (∀ b, p b = .done (responses b)) ∧ callOrder σ = [false, true] ∧
        (∀ b, (responses b).status = 204) ∧
        m.entities = [.obj [("id", .str "b"), ("name", .str "a")]] ∧
        ¬(catalog "name").ServedInOrder noRouters (besideDeletion misnamed) responses twoEntries m σ
          [] := by
  refine ⟨overMemory_catalog "name", fun _ => steady_of_none _ rfl, _, _, _,
    fun _ => noContent (.forResponseTo [] []), .ask true rfl (.ask true rfl (.ask false rfl
      (.ask false rfl (.ask false rfl (.ask true rfl (.refl _ _)))))), ?_, rfl, fun _ => rfl, rfl, ?_⟩
  · intro b
    cases b <;> rfl
  · intro hserved
    have hresponse := hserved.response [false] true [] rfl
    have hmissing : (serveAlone (catalog "name") noRouters (besideDeletion misnamed) true
        (Pool.inTurn (serveAlone (catalog "name") noRouters (besideDeletion misnamed)) [false]
          twoEntries)).1.map Response.status = .ok 404 := rfl
    rw [hresponse] at hmissing
    cases hmissing

/-- Documents with routes below each of them that tell whether there are any. -/
def counted : Resource (Memory Json) Json String :=
  { catalog "id" with
    routes := some (.ofService fun _ => do
      let m ← Act.get
      return .plain (if m.entities.isEmpty then 404 else 200)) }

/-- A request for what is below the document `a`. -/
def counting : Request where
  method := "GET"
  uri := ⟨none, none, "/a/any", none⟩
  headers := []
  chunks := []
  attributes := { Attributes.empty with routing := some ⟨"/a/any", [], ["a", "any"]⟩ }

/-- Where nested routes answer by what is stored, no call says when the request is served. -/
theorem not_inOrder_counting : ¬InOrder counted noRouters fun _ : Unit => counting := by
  intro horder
  obtain ⟨σ, p, hrun, hend, hcalls⟩ : ∃ σ p,
      Pool.Run (counted.answer noRouters) (fun _ : Unit => counted.recovered counting) twoEntries σ p
        twoEntries ∧ (∀ u, p u = .done (.plain 200)) ∧ callOrder σ = [] :=
    ⟨_, _, .ask () rfl (.ask () rfl (.refl _ _)), fun _ => rfl, rfl⟩
  have hserved := horder _ _ _ σ [] p p _ hrun (.refl _ _) hend
  have hnever : () ∉ callOrder (σ ++ []) := by
    rw [List.append_nil, hcalls]
    exact List.not_mem_nil
  obtain ⟨hresponse, -⟩ := hserved.elsewhere () hnever Memory.empty
  have hmissing : (serveAlone counted noRouters (fun _ : Unit => counting) () Memory.empty).1 =
      .ok (.plain 404) := rfl
  rw [hresponse] at hmissing
  exact absurd (congrArg Response.status (Except.ok.inj hmissing)) (by decide)

end Documents

end Resource

end WebResource
