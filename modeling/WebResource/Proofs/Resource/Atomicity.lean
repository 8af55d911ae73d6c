import WebResource.Proofs.Interleaving.Runs
import WebResource.Proofs.Resource.Memory

namespace WebResource

/-!
# Requests that act at once

A resource may look an entity up before it changes it, and between the two other requests may be served.
Even so, a request acts at once: where the entity has vanished meanwhile, the change fails as the
look-up would have. This holds of a replacement only if what it hands to the repository is found there by
the identifier that has been looked up.
-/

namespace Memory

variable {E I : Type} [DecidableEq I] {k : Identity E I} {m m' : Memory E}

/-- What is stored, apart from the streams that read it. -/
def content (m : Memory E) : Memory E := { m with openStreams := 0 }

theorem content_eq_iff : m.content = m'.content ↔ ∃ n, m' = { m with openStreams := n } := by
  obtain ⟨es, sequence, openStreams, injected⟩ := m
  obtain ⟨es', sequence', openStreams', injected'⟩ := m'
  simp only [content, Memory.mk.injEq]
  constructor
  · rintro ⟨rfl, rfl, -, rfl⟩
    exact ⟨openStreams', rfl, rfl, rfl, rfl⟩
  · rintro ⟨n, rfl, rfl, -, rfl⟩
    exact ⟨rfl, rfl, trivial, rfl⟩

section Streams

variable (n : Nat) (e : E) (i : I)

theorem create_openStreams : Memory.create k e { m with openStreams := n } =
    ((Memory.create k e m).1, { (Memory.create k e m).2 with openStreams := n }) := by
  unfold Memory.create
  cases k.id e with
  | none => rfl
  | some i =>
      simp only
      split <;> rfl

theorem update_openStreams : Memory.update k e { m with openStreams := n } =
    ((Memory.update k e m).1, { (Memory.update k e m).2 with openStreams := n }) := by
  unfold Memory.update
  cases k.id e with
  | none => rfl
  | some i =>
      simp only
      split <;> rfl

theorem delete_openStreams : Memory.delete k i { m with openStreams := n } =
    ((Memory.delete k i m).1, { (Memory.delete k i m).2 with openStreams := n }) := by
  unfold Memory.delete
  simp only
  split <;> rfl

end Streams

end Memory

namespace Resource

variable {E I : Type} [DecidableEq I] {k : Identity E I} {r : Resource (Memory E) E I}
  {routers : NodeId → Service (Memory E)} {m m' : Memory E}

/-- A request that nested routes answer in one way whatever is stored, and leave that as it is. -/
def AnsweredAlike (r : Resource (Memory E) E I) (routers : NodeId → Service (Memory E))
    (request : Request) : Prop :=
  ∃ a, ∀ m, Act.outcome (r.answer routers (.delegate request)) m = (a, m)

namespace Call

/-- The calls that an operation on the repository answers. -/
def isStorage {S : Type} : Call S E I → Bool
  | create _ _ => true
  | index _ => true
  | find _ _ => true
  | update _ _ => true
  | destroy _ _ => true
  | destroyAll _ => true
  | _ => false

/-- What is released is a stream that reads what is stored, and what is left to nested routes has nothing
to do with that. -/
def Proper (r : Resource (Memory E) E I) (routers : NodeId → Service (Memory E)) :
    Call (Memory E) E I → Prop
  | release f => f = Memory.closeStream
  | delegate request => r.AnsweredAlike routers request
  | _ => True

end Call

/-- A resource without hooks whose operations are those on entities in memory. -/
structure OverMemory (k : Identity E I) (r : Resource (Memory E) E I) : Prop where
  operations : r.operations = Memory.operations k
  collectionHook : r.collectionHook = none
  resourceHook : r.resourceHook = none

namespace OverMemory

/-- The answers do not depend on open streams. -/
theorem answer_openStreams (h : OverMemory k r) {q : Call (Memory E) E I} (hq : q.Proper r routers)
    (n : Nat) : ∃ n', Act.outcome (r.answer routers q) { m with openStreams := n } =
      ((Act.outcome (r.answer routers q) m).1,
        { (Act.outcome (r.answer routers q) m).2 with openStreams := n' }) := by
  cases q with
  | create c e =>
      refine ⟨n, ?_⟩
      rw [outcome_answer_create h.operations, outcome_answer_create h.operations,
        Memory.create_openStreams]
  | index c =>
      refine ⟨n + 1, ?_⟩
      rw [outcome_answer_index h.operations, outcome_answer_index h.operations]
      rfl
  | find c i =>
      refine ⟨n, ?_⟩
      rw [outcome_answer_find h.operations, outcome_answer_find h.operations]
      rfl
  | update c e =>
      refine ⟨n, ?_⟩
      rw [outcome_answer_update h.operations, outcome_answer_update h.operations,
        Memory.update_openStreams]
  | destroy c i =>
      refine ⟨n, ?_⟩
      rw [outcome_answer_destroy h.operations, outcome_answer_destroy h.operations,
        Memory.delete_openStreams]
  | destroyAll c =>
      refine ⟨n, ?_⟩
      rw [outcome_answer_destroyAll h.operations, outcome_answer_destroyAll h.operations]
      rfl
  | prepareCollection c =>
      refine ⟨n, ?_⟩
      simp only [answer, h.collectionHook]
      rfl
  | prepareResource c i =>
      refine ⟨n, ?_⟩
      simp only [answer, h.resourceHook]
      rfl
  | delegate request =>
      obtain ⟨a, ha⟩ := hq
      exact ⟨n, by rw [ha, ha]⟩
  | release f =>
      obtain rfl : f = Memory.closeStream := hq
      exact ⟨n - 1, rfl⟩

/-- What is not asked of the repository gets one answer, and changes nothing but open streams. -/
theorem answer_other (h : OverMemory k r) {q : Call (Memory E) E I} (hq : q.Proper r routers)
    (hother : q.isStorage = false) :
    ∃ a, ∀ m, (Act.outcome (r.answer routers q) m).1 = a ∧
      (Act.outcome (r.answer routers q) m).2.content = m.content := by
  cases q with
  | create c e => cases hother
  | index c => cases hother
  | find c i => cases hother
  | update c e => cases hother
  | destroy c i => cases hother
  | destroyAll c => cases hother
  | prepareCollection c =>
      simp only [answer, h.collectionHook]
      exact ⟨_, fun m => ⟨rfl, rfl⟩⟩
  | prepareResource c i =>
      simp only [answer, h.resourceHook]
      exact ⟨_, fun m => ⟨rfl, rfl⟩⟩
  | delegate request =>
      obtain ⟨a, ha⟩ := hq
      exact ⟨a, fun m => by rw [ha]; exact ⟨rfl, rfl⟩⟩
  | release f =>
      obtain rfl : f = Memory.closeStream := hq
      exact ⟨_, fun m => ⟨rfl, rfl⟩⟩

/-- The entities in memory, as requests share them. -/
def shared (h : OverMemory k r) (routers : NodeId → Service (Memory E)) :
    Shared (Call (Memory E) E I) Call.Answer (Memory E) (Memory E) where
  answer := r.answer routers
  view := Memory.content
  counts := Call.isStorage
  proper := Call.Proper r routers
  result_congr q m m' hq hview := by
    obtain ⟨n, rfl⟩ := Memory.content_eq_iff.mp hview
    obtain ⟨n', hanswer⟩ := h.answer_openStreams (m := m) hq n
    rw [hanswer]
  view_congr q m m' hq hview := by
    obtain ⟨n, rfl⟩ := Memory.content_eq_iff.mp hview
    obtain ⟨n', hanswer⟩ := h.answer_openStreams (m := m) hq n
    rw [hanswer]
    rfl
  result_other q m m' hq hother := by
    obtain ⟨a, ha⟩ := h.answer_other hq hother
    exact (ha m).1.trans (ha m').1.symm
  view_other q m hq hother := by
    obtain ⟨a, ha⟩ := h.answer_other hq hother
    exact (ha m).2

end OverMemory

/-- An entity replaces nothing if it has no identifier but one that is missing. -/
theorem update_of_missing {e : E} {i : I} (hfind : m.find k i = none)
    (hid : ∀ j, k.id e = some j → j = i) : Memory.update k e m = (.error Memory.notFound, m) := by
  cases he : k.id e with
  | none => rw [Memory.update, he]
  | some j =>
      obtain rfl : j = i := hid j he
      rcases update_eq (m := m) he with ⟨-, hupdate⟩ | ⟨hfound, -⟩
      · exact hupdate
      · rw [hfind] at hfound
        cases hfound

/-! ## Operations -/

section Operations

variable (r routers) in
/-- A part of serving that asks for nothing that is stored. -/
abbrev Serving.Quiet {α : Type} (x : Serving (Memory E) E I α) : Prop :=
  Serving.Asks (fun q => q.Proper r routers ∧ q.isStorage = false) x

variable (h : OverMemory k r) (c : Context) (i : I) (request : Request) (n out : MediaCodec)

variable (routers) in
/-- A part of serving that acts at once. -/
abbrev Serving.ActsAtOnce {α : Type} (x : Serving (Memory E) E I α) : Prop :=
  (h.shared routers).ActsAtOnce x.run

variable {h} {α β : Type} {q : Call (Memory E) E I}

omit [DecidableEq I] in
theorem run_ask_bind (f : q.Answer → Serving (Memory E) E I α) :
    (Serving.ask q >>= f).run = .ask q fun
      | .ok a => (f a).run
      | .error p => .panic p := by
  change Prog.bind _ _ = _
  refine congrArg (Prog.ask q) (funext fun a => ?_)
  cases a <;> rfl

theorem actsAtOnce_of_quiet {x : Serving (Memory E) E I α} (hx : Serving.Quiet r routers x) :
    Serving.ActsAtOnce routers h x :=
  Shared.ActsAtOnce.of_silent hx

theorem actsAtOnce_ask_last {f : q.Answer → Serving (Memory E) E I α} (hproper : q.Proper r routers)
    (hq : q.isStorage = true)
    (hf : ∀ m a, (Act.outcome (r.answer routers q) m).1 = .ok a → Serving.Quiet r routers (f a)) :
    Serving.ActsAtOnce routers h (Serving.ask q >>= f) := by
  rw [Serving.ActsAtOnce, run_ask_bind]
  refine Shared.ActsAtOnce.of_last hproper hq fun m => ?_
  cases hreply : ((h.shared routers).reply q m).1 with
  | ok a => exact hf m a hreply
  | error p => exact .panic p

theorem actsAtOnce_ask_other {f : q.Answer → Serving (Memory E) E I α} (hproper : q.Proper r routers)
    (hq : q.isStorage = false)
    (hf : ∀ m a, (Act.outcome (r.answer routers q) m).1 = .ok a → Serving.ActsAtOnce routers h (f a)) :
    Serving.ActsAtOnce routers h (Serving.ask q >>= f) := by
  rw [Serving.ActsAtOnce, run_ask_bind]
  refine Shared.ActsAtOnce.of_other hproper hq fun m => ?_
  cases hreply : ((h.shared routers).reply q m).1 with
  | ok a => exact hf m a hreply
  | error p => exact Shared.ActsAtOnce.of_silent (.panic p)

theorem actsAtOnce_ofExcept {x : Except ApiError α} {f : α → Serving (Memory E) E I β}
    (hf : ∀ a, Serving.ActsAtOnce routers h (f a)) :
    Serving.ActsAtOnce routers h (Serving.ofExcept x >>= f) := by
  cases x with
  | ok a => exact hf a
  | error e => exact actsAtOnce_of_quiet (Serving.Asks.throw e)

theorem actsAtOnce_mapped {toError : String → ApiError} {x : Mapped α}
    {f : α → Serving (Memory E) E I β} (hf : ∀ a, Serving.ActsAtOnce routers h (f a)) :
    Serving.ActsAtOnce routers h (Serving.mapped toError x >>= f) := by
  cases x with
  | ok a => exact hf a
  | refused why => exact actsAtOnce_of_quiet (Serving.Asks.throw _)
  | panicked p => exact actsAtOnce_of_quiet (Serving.Asks.panic p)

/-- What follows a look-up, if that finds something. -/
def ifFound (r : Resource (Memory E) E I) (i : I) (rest : Serving (Memory E) E I α)
    (found : Except StorageError (Option E)) : Serving (Memory E) E I α := do
  match ← Serving.persisted found with
  | some _ => rest
  | none => throw ⟨.entityNotFound, r.idText i⟩

omit [DecidableEq I] in
theorem requireExisting_bind (hfind : r.operations.find.isSome = true)
    (rest : Serving (Memory E) E I α) :
    (r.requireExisting c i >>= fun _ => rest) = Serving.ask (.find c i) >>= r.ifFound i rest := by
  unfold requireExisting
  rw [if_pos hfind, bind_assoc]
  refine congrArg _ (funext fun found => ?_)
  rw [ifFound, bind_assoc]
  refine congrArg _ (funext fun found => ?_)
  cases found with
  | some e => rfl
  | none => rfl

/-- What follows a look-up acts at once with it, if it fails by itself where the look-up does. -/
theorem actsAtOnce_check {rest : Serving (Memory E) E I α} (hrest : Serving.ActsAtOnce routers h rest)
    (hmissing : ∀ m : Memory E, m.find k i = none →
      Serving.outcome (r.answer routers) rest m = (.ok (.error ⟨.entityNotFound, r.idText i⟩), m)) :
    Serving.ActsAtOnce routers h (r.requireExisting c i >>= fun _ => rest) := by
  rw [requireExisting_bind c i (by simp [h.operations, Memory.operations]), Serving.ActsAtOnce,
    run_ask_bind]
  have hreply (m : Memory E) : (h.shared routers).reply (.find c i) m = (.ok (.ok (m.find k i)), m) := by
    change Act.outcome (r.answer routers (.find c i)) m = _
    exact outcome_answer_find h.operations c i
  refine Shared.ActsAtOnce.of_check trivial rfl (fun m => ?_) hrest fun m => ?_
  · rw [hreply]
  · rw [hreply]
    cases hfind : m.find k i with
    | none =>
        refine Or.inl ⟨_, rfl, ?_⟩
        have halone : (h.shared routers).alone rest.run m =
            (.ok (.error ⟨.entityNotFound, r.idText i⟩), m) := hmissing m hfind
        rw [halone]
        exact .rfl
    | some e => exact Or.inr rfl

/-- A look-up is the last question if nothing is asked for where it finds something. -/
theorem actsAtOnce_check_quiet {rest : Serving (Memory E) E I α}
    (hrest : ∀ m : Memory E, (m.find k i).isSome → Serving.Quiet r routers rest) :
    Serving.ActsAtOnce routers h (r.requireExisting c i >>= fun _ => rest) := by
  rw [requireExisting_bind c i (by simp [h.operations, Memory.operations])]
  refine actsAtOnce_ask_last trivial rfl fun m a ha => ?_
  rw [outcome_answer_find h.operations] at ha
  obtain rfl := Except.ok.inj ha
  cases hfound : m.find k i with
  | none => exact Serving.Asks.throw _
  | some e => exact hrest m (by rw [hfound]; rfl)

variable (h)

theorem create_actsAtOnce : Serving.ActsAtOnce routers h (r.create c request n out) := by
  unfold create ofDocument
  simp only [h.operations, Memory.operations]
  apply actsAtOnce_ofExcept
  intro document
  apply actsAtOnce_mapped
  intro e
  refine actsAtOnce_ask_last trivial rfl fun m a ha => ?_
  exact Serving.Asks.bind (Serving.Asks.persisted a) fun created =>
    r.entityResponse_asks c out 201 created

theorem index_actsAtOnce : Serving.ActsAtOnce routers h (r.index c out) := by
  unfold index
  simp only [h.operations, Memory.operations]
  cases out.codec.streaming with
  | none => exact actsAtOnce_of_quiet (Serving.Asks.throw _)
  | some format =>
      refine actsAtOnce_ask_last trivial rfl fun m stream hstream => ?_
      rw [outcome_answer_index h.operations] at hstream
      obtain rfl := Except.ok.inj hstream
      have hrelease : Serving.Quiet r routers
          (Serving.ask (.release Memory.closeStream) : Serving (Memory E) E I Unit) :=
        Serving.Asks.ask ⟨rfl, rfl⟩
      simp only
      split
      · exact Serving.Asks.pure _
      · exact Serving.Asks.bind hrelease fun _ => Serving.Asks.pure _
      · exact Serving.Asks.bind hrelease fun _ =>
          Serving.Asks.bind (Serving.Asks.logs _) fun _ => Serving.Asks.throw _
      · exact Serving.Asks.bind hrelease fun _ => Serving.Asks.panic _

theorem destroyAll_actsAtOnce : Serving.ActsAtOnce routers h (r.destroyAll c out) := by
  rw [destroyAll_eq (by simp [h.operations, Memory.operations])]
  refine actsAtOnce_ask_last trivial rfl fun m a ha => ?_
  exact Serving.Asks.bind (Serving.Asks.persisted a) fun _ => Serving.Asks.pure _

theorem show_actsAtOnce : Serving.ActsAtOnce routers h (r.show c i out) := by
  unfold «show»
  simp only [h.operations, Memory.operations]
  refine actsAtOnce_ask_last trivial rfl fun m a ha => ?_
  refine Serving.Asks.bind (Serving.Asks.persisted a) fun found => ?_
  cases found with
  | some e => exact r.entityResponse_asks c out 200 e
  | none => exact Serving.Asks.throw _

/-- A deletion fails as the look-up before it. -/
theorem destroy_actsAtOnce : Serving.ActsAtOnce routers h (r.destroy c i out) := by
  unfold destroy
  simp only [h.operations, Memory.operations]
  apply actsAtOnce_check
  · refine actsAtOnce_ask_last trivial rfl fun m a ha => ?_
    exact Serving.Asks.bind (Serving.Asks.persistedFor _ a) fun _ => Serving.Asks.pure _
  · intro m hfind
    rw [Serving.outcome_ask_bind _ (outcome_answer_destroy h.operations c i)]
    rcases delete_eq (k := k) (i := i) (m := m) with ⟨-, hdelete⟩ | ⟨hfound, -⟩
    · rw [hdelete]
      rfl
    · rw [hfind] at hfound
      cases hfound

/-- What a replacement under an identifier hands to the repository. -/
def Replacement (r : Resource (Memory E) E I) (c : Context) (i : I) (request : Request) (n : MediaCodec)
    (e : E) : Prop :=
  ∃ document before, readDocument r.bodyReadLimit request n = .ok document ∧
    (r.mappings.get n.mediaType).ofDocument c document = .ok before ∧ r.idLens.set i before = .ok e

include h in
theorem update_of_replacement {e : E} (he : r.Replacement c i request n e) :
    r.update c i request n out = (do
      r.requireExisting c i
      Serving.persistedFor (r.idText i) (← Serving.ask (.update c e))
      return noContent out) := by
  obtain ⟨document, before, hdocument, hmapped, hset⟩ := he
  unfold update ofDocument
  simp only [h.operations, Memory.operations, hdocument]
  change (r.requireExisting c i >>= fun _ => _) = _
  simp only [hmapped, Serving.mapped, pure_bind, hset]

theorem update_actsAtOnce_of_refused (hnone : ∀ e, ¬r.Replacement c i request n e) :
    Serving.ActsAtOnce routers h (r.update c i request n out) := by
  unfold update ofDocument
  simp only [h.operations, Memory.operations]
  cases hdocument : readDocument r.bodyReadLimit request n with
  | error x => exact actsAtOnce_of_quiet (Serving.Asks.throw _)
  | ok document =>
      apply actsAtOnce_check_quiet
      intro m hfound
      cases hmapped : (r.mappings.get n.mediaType).ofDocument c document with
      | refused why => exact Serving.Asks.throw _
      | panicked p => exact Serving.Asks.panic p
      | ok before =>
          cases hset : r.idLens.set i before with
          | error x =>
              simp only [Serving.mapped, pure_bind, hset]
              exact Serving.Asks.throw _
          | ok e => exact absurd ⟨document, before, hdocument, hmapped, hset⟩ (hnone e)

/-- A replacement fails as the look-up before it, if it is found by the identifier that has been looked
up. An identifier that no entity can have is looked up in vain. -/
theorem update_actsAtOnce (hkeeps : ∀ e j, r.Replacement c i request n e → k.id e = some j →
    (∃ e', k.id e' = some i) → j = i) : Serving.ActsAtOnce routers h (r.update c i request n out) := by
  by_cases hnone : ∀ e, ¬r.Replacement c i request n e
  · exact update_actsAtOnce_of_refused h c i request n out hnone
  · obtain ⟨e, he⟩ := not_forall_not.mp hnone
    rw [update_of_replacement h c i request n out he]
    by_cases hknown : ∃ e', k.id e' = some i
    · apply actsAtOnce_check
      · refine actsAtOnce_ask_last trivial rfl fun m a ha => ?_
        exact Serving.Asks.bind (Serving.Asks.persistedFor _ a) fun _ => Serving.Asks.pure _
      · intro m hfind
        rw [Serving.outcome_ask_bind _ (outcome_answer_update h.operations c e),
          update_of_missing hfind fun j hj => hkeeps e j he hj hknown]
        rfl
    · refine actsAtOnce_check_quiet c i fun m hfound => absurd ?_ hknown
      obtain ⟨e', he'⟩ := Option.isSome_iff_exists.mp hfound
      exact ⟨e', by simpa [Memory.hasId] using List.find?_some he'⟩

/-! ## Requests -/

/-- A request for what an identifier stands for, or for what is nested below it, in its context. -/
def Addresses (r : Resource (Memory E) E I) (request : Request) (cursor : PathCursor) (i : I)
    (c : Context) : Prop :=
  ∃ raw, request.routing.shift = (some raw, cursor) ∧ r.ids.parse (Percent.decodeSegment raw) = .ok i ∧
    c = r.resourceContext request (Percent.decodeSegment raw) i

/-- A request that a resource serves by itself, or that its nested routes answer in one way. -/
def Steady (r : Resource (Memory E) E I) (routers : NodeId → Service (Memory E)) (request : Request) :
    Prop :=
  ∀ cursor i c, r.Addresses request cursor i c → cursor.isExhausted = false →
    r.AnsweredAlike routers (nested request c cursor)

/-- A request that replaces an entity, with what it hands to the repository. -/
def Replaces (r : Resource (Memory E) E I) (request : Request) (i : I) (e : E) : Prop :=
  (request.method = "PUT" ∨ request.method = "PATCH") ∧
    ∃ cursor c, r.Addresses request cursor i c ∧ cursor.isExhausted = true ∧
      r.Replacement c i request (.forRequest request.headers r.codecs) e

variable (k) in
/-- What a request replaces is found by the identifier in its path, if anything can be found by that. -/
def KeepsToPath (r : Resource (Memory E) E I) (request : Request) : Prop :=
  ∀ i e j, r.Replaces request i e → k.id e = some j → (∃ e', k.id e' = some i) → j = i

variable (k) in
/-- The identifier that is assigned to an entity is the one it is found by. -/
def Assigns (r : Resource (Memory E) E I) : Prop :=
  ∀ i j before e, r.idLens.set i before = .ok e → k.id e = some j → j = i

omit [DecidableEq I] in
theorem keepsToPath_of_assigns (hassigns : Assigns k r) : KeepsToPath k r request := by
  rintro i e j ⟨-, _, _, _, _, _, before, _, _, hset⟩ hid _
  exact hassigns i j before e hset hid

omit [DecidableEq I] in
theorem steady_of_none (hroutes : r.routes = none) : r.Steady routers request := by
  intro cursor i c _ _
  exact ⟨.error (.text "Operation is not offered"), fun m => by rw [answer, hroutes]; rfl⟩

/-- A property of what acts at once is a property of serving a request, if questions in front that are
not about what is stored make no difference and replacements have it. -/
theorem perform_of {P : Serving (Memory E) E I (Response (Memory E)) → Prop}
    (hacts : ∀ x, Serving.ActsAtOnce routers h x → P x)
    (hask : ∀ (q : Call (Memory E) E I) f, q.Proper r routers → q.isStorage = false →
      (∀ m a, (Act.outcome (r.answer routers q) m).1 = .ok a → P (f a)) → P (Serving.ask q >>= f))
    (hsteady : r.Steady routers request)
    (hupdate : ∀ cursor i c, r.Addresses request cursor i c → cursor.isExhausted = true →
      request.method = "PUT" ∨ request.method = "PATCH" → P (r.update c i request n out)) :
    P (r.perform request n out) := by
  have hthrow (e : ApiError) : P (throw e) := hacts _ (actsAtOnce_of_quiet (Serving.Asks.throw e))
  unfold perform
  split
  · unfold serveCollection
    refine hask (.prepareCollection (context request)) _ trivial rfl fun m prepared hprepared => ?_
    simp only [answer, h.collectionHook] at hprepared
    obtain rfl := Except.ok.inj hprepared
    change P (if _ then _ else _)
    split
    · exact hacts _ (create_actsAtOnce h _ request n out)
    · split
      · exact hacts _ (index_actsAtOnce h _ out)
      · split
        · exact hacts _ (destroyAll_actsAtOnce h _ out)
        · exact hthrow _
  · next raw cursor hshift =>
      unfold serveResource
      cases hparse : r.ids.parse (Percent.decodeSegment raw) with
      | error x => exact hthrow _
      | ok i =>
          have haddresses : r.Addresses request cursor i
              (r.resourceContext request (Percent.decodeSegment raw) i) :=
            ⟨raw, hshift, hparse, rfl⟩
          refine hask (.prepareResource _ i) _ trivial rfl fun m prepared hprepared => ?_
          simp only [answer, h.resourceHook] at hprepared
          obtain rfl := Except.ok.inj hprepared
          change P (if _ then _ else _)
          split
          · next hend =>
              split
              · exact hacts _ (show_actsAtOnce h _ i out)
              · split
                · next hmethod => exact hupdate cursor i _ haddresses hend hmethod
                · split
                  · exact hacts _ (destroy_actsAtOnce h _ i out)
                  · exact hthrow _
          · next hend =>
              have hother : cursor.isExhausted = false := by simpa using hend
              split
              · refine hacts _ (actsAtOnce_of_quiet (Serving.Asks.ask ⟨?_, rfl⟩))
                exact hsteady cursor i _ haddresses hother
              · exact hthrow _

theorem perform_actsAtOnce (hsteady : r.Steady routers request) (hkeeps : KeepsToPath k r request) :
    Serving.ActsAtOnce routers h
      (r.perform request (.forRequest request.headers r.codecs) out) := by
  refine perform_of h request _ out (fun x hx => hx) (fun q f => actsAtOnce_ask_other) hsteady ?_
  intro cursor i c haddresses hend hmethod
  apply update_actsAtOnce
  intro e j he
  exact hkeeps i e j ⟨hmethod, cursor, c, haddresses, hend, he⟩

/-- Asking for something proper comes first, and what is proper comes after it. -/
theorem proper_ask {f : q.Answer → Serving (Memory E) E I α} (hproper : q.Proper r routers)
    (hf : ∀ m a, (Act.outcome (r.answer routers q) m).1 = .ok a → (h.shared routers).Proper (f a).run) :
    (h.shared routers).Proper (Serving.ask q >>= f).run := by
  rw [run_ask_bind]
  refine ⟨hproper, fun m => ?_⟩
  cases hreply : ((h.shared routers).reply q m).1 with
  | ok a => exact hf m a hreply
  | error p => trivial

theorem perform_proper (hsteady : r.Steady routers request) :
    (h.shared routers).Proper (r.perform request n out).run := by
  refine perform_of h request n out (fun x => Shared.ActsAtOnce.proper)
    (fun q f hq _ => proper_ask h hq) hsteady fun cursor i c _ _ _ => ?_
  exact Shared.Proper.of_asks (r.update_asks c i request n out trivial fun _ _ _ => trivial)

/-! ## Responses -/

/-- The response to what has been asked for, where errors are rendered. -/
def concluded (r : Resource (Memory E) E I) (request : Request) :
    Except ApiError (Response (Memory E)) →
      Prog (Call (Memory E) E I) Call.Answer (Response (Memory E))
  | .ok response => .done response
  | .error e =>
    .log (.debug s!"Request for {request.path} failed: {e.message}")
      (r.renderError e (.forResponseTo request.headers r.codecs) request.path)

/-- The response where a panic is caught. -/
def caught (request : Request) :
    Except Payload (Response (Memory E)) →
      Prog (Call (Memory E) E I) Call.Answer (Response (Memory E))
  | .ok response => .done response
  | .error p =>
    let e := p.toError
    let (logs, response) := e.render (.forResponseTo request.headers []) request.path
    .log (.error s!"Recovered from panic while serving {request.path}: {e.message}")
      (logs.foldr .log (.done response))

/-- Serving to the end: errors and panics become responses. -/
def finish (r : Resource (Memory E) E I) (request : Request)
    (x : Serving (Memory E) E I (Response (Memory E))) :
    Prog (Call (Memory E) E I) Call.Answer (Response (Memory E)) :=
  (x.run.bind (r.concluded request)).attempt.bind (caught request)

/-- What a resource does for a request. -/
def recovered (r : Resource (Memory E) E I) (request : Request) :
    Prog (Call (Memory E) E I) Call.Answer (Response (Memory E)) :=
  r.finish request (r.perform request (.forRequest request.headers r.codecs)
    (.forResponseTo request.headers r.codecs))

omit [DecidableEq I] in
theorem serve_eq (r : Resource (Memory E) E I) (request : Request) :
    r.serve request = (r.perform request (.forRequest request.headers r.codecs)
      (.forResponseTo request.headers r.codecs)).run.bind (r.concluded request) := by
  rw [serve]
  refine congrArg _ (funext fun a => ?_)
  cases a <;> rfl

omit [DecidableEq I] in
theorem interpret_recovered (r : Resource (Memory E) E I) (routers : NodeId → Service (Memory E))
    (request : Request) :
    (r.recovered request).interpret (r.answer routers) = r.handler.serve routers request := by
  rw [recovered, finish, ← serve_eq, Prog.interpret_bind, Prog.interpret_attempt]
  refine congrArg (Prog.bind ((r.service routers request).attempt)) (funext fun a => ?_)
  cases a with
  | ok response => rfl
  | error p =>
      simp only [caught, Prog.interpret, Prog.interpret_logs]
      rfl

theorem concluded_silent (a : Except ApiError (Response (Memory E))) :
    (h.shared routers).Silent (r.concluded request a) := by
  cases a with
  | ok response => exact .done response
  | error e => exact .log _ (r.renderError_asks e _ _)

theorem caught_silent (a : Except Payload (Response (Memory E))) :
    (h.shared routers).Silent (caught request a) := by
  cases a with
  | ok response => exact .done response
  | error p => exact .log _ (.logs _ (.done _))

theorem recovered_actsAtOnce (hsteady : r.Steady routers request) (hkeeps : KeepsToPath k r request) :
    (h.shared routers).ActsAtOnce (r.recovered request) := by
  refine Shared.ActsAtOnce.bind (Shared.ActsAtOnce.attempt ?_) (caught_silent h request)
  exact Shared.ActsAtOnce.bind (perform_actsAtOnce h request _ hsteady hkeeps) (concluded_silent h request)

theorem recovered_proper (hsteady : r.Steady routers request) :
    (h.shared routers).Proper (r.recovered request) := by
  refine Shared.Proper.bind (Shared.Proper.attempt ?_) fun a => (caught_silent h request a).proper
  exact Shared.Proper.bind (perform_proper h request _ _ hsteady) fun a =>
    (concluded_silent h request a).proper

omit [DecidableEq I] in
/-- Serving ends in a response, whatever the answers are. -/
theorem not_ends_recovered (r : Resource (Memory E) E I) (request : Request) (p : Payload) :
    ¬(r.recovered request).Ends (.error p) := by
  intro hends
  obtain ⟨a, ha⟩ := hends.of_attempt_bind
  cases a with
  | ok response => cases ha
  | error p' =>
      cases ha with
      | log r ha => cases ha.of_logs

end Operations

end Resource

end WebResource
