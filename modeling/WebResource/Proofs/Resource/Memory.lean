import WebResource.Proofs.Repository
import WebResource.Proofs.Resource.Outcome
import WebResource.Repository.Memory

namespace WebResource.Resource

/-!
# Resources over entities in memory

What comes of serving a request where nothing is added to the operations on the entities: the
operation decides on the response, and on what is stored at the end.
-/

variable {E I : Type} [DecidableEq I] {k : Identity E I} {r : Resource (Memory E) E I}
  {routers : NodeId → Service (Memory E)} {m m' : Memory E}

/-! ## Answers -/

section Answers

variable (hr : r.operations = Memory.operations k)

include hr

theorem outcome_answer_create (c : Context) (e : E) :
    Act.outcome (r.answer routers (.create c e)) m =
      (.ok (Memory.create k e m).1, (Memory.create k e m).2) := by
  simp [answer, hr, Memory.operations]

theorem outcome_answer_find (c : Context) (i : I) :
    Act.outcome (r.answer routers (.find c i)) m = (.ok (.ok (m.find k i)), m) := by
  simp [answer, hr, Memory.operations]

theorem outcome_answer_update (c : Context) (e : E) :
    Act.outcome (r.answer routers (.update c e)) m =
      (.ok (Memory.update k e m).1, (Memory.update k e m).2) := by
  simp [answer, hr, Memory.operations]

theorem outcome_answer_destroy (c : Context) (i : I) :
    Act.outcome (r.answer routers (.destroy c i)) m =
      (.ok (Memory.delete k i m).1, (Memory.delete k i m).2) := by
  simp [answer, hr, Memory.operations]

theorem outcome_answer_destroyAll (c : Context) :
    Act.outcome (r.answer routers (.destroyAll c)) m = (.ok (.ok ()), m.deleteAll) := by
  simp [answer, hr, Memory.operations]

theorem outcome_answer_index (c : Context) :
    Act.outcome (r.answer routers (.index c)) m =
      (.ok ⟨m.snapshot, Memory.closeStream⟩, m.openStream.2) := by
  simp [answer, hr, Memory.operations]
  rfl

end Answers

omit [DecidableEq I] in
theorem outcome_persisted {S α : Type} (answer : (q : Call S E I) → Act S (Call.Answer q))
    (x : Except StorageError α) (s : S) :
    Serving.outcome answer (Serving.persisted x : Serving S E I α) s =
      (.ok (x.mapError StorageError.toApi), s) := by
  cases x with
  | ok a => rfl
  | error x =>
      rw [Serving.persisted]
      split <;> rfl

/-! ## Entities that are missing -/

theorem error_of_create {e : E} {x : StorageError}
    (h : Memory.create k e m = (.error x, m')) : x = Memory.alreadyExists := by
  unfold Memory.create at h
  split at h
  · split at h <;> cases h
    rfl
  · cases h

section Missing

variable {e : E} {i : I}

theorem find_eq_none_iff : m.find k i = none ↔ ∀ e ∈ m.entities, Memory.hasId k i e = false := by
  simp [Memory.find, List.find?_eq_none]

theorem update_eq (he : k.id e = some i) :
    (m.find k i = none ∧ Memory.update k e m = (.error Memory.notFound, m)) ∨
      ((m.find k i).isSome ∧ ∃ es, Memory.update k e m = (.ok (), { m with entities := es })) := by
  rw [Memory.update, he]
  cases hfind : m.find k i with
  | none =>
      have hnone := (Repository.replaceFirst_eq_none_iff e).mpr (find_eq_none_iff.mp hfind)
      exact Or.inl ⟨rfl, by simp only [hnone]⟩
  | some found =>
      cases hreplaced : Repository.replaceFirst (Memory.hasId k i) e m.entities with
      | none =>
          rw [find_eq_none_iff.mpr ((Repository.replaceFirst_eq_none_iff e).mp hreplaced)] at hfind
          cases hfind
      | some es => exact Or.inr ⟨rfl, es, by simp only [hreplaced]⟩

theorem delete_eq :
    (m.find k i = none ∧ Memory.delete k i m = (.error Memory.notFound, m)) ∨
      ((m.find k i).isSome ∧ ∃ es, Memory.delete k i m = (.ok (), { m with entities := es })) := by
  -- A deletion tells from the number of entities whether there was one to delete.
  have hlength : (m.entities.filter fun e => !Memory.hasId k i e).length = m.entities.length ↔
      m.find k i = none := by
    rw [List.length_filter_eq_length_iff, find_eq_none_iff]
    simp
  rw [Memory.delete]
  cases hfind : m.find k i with
  | none => exact Or.inl ⟨rfl, if_pos (hlength.mpr hfind)⟩
  | some found =>
      refine Or.inr ⟨rfl, _, if_neg fun hsame => ?_⟩
      rw [hlength.mp hsame] at hfind
      cases hfind

theorem error_of_update {x : StorageError} (he : k.id e = some i)
    (h : (Memory.update k e m).1 = .error x) : x = Memory.notFound := by
  rcases update_eq (m := m) he with ⟨-, hupdate⟩ | ⟨-, es, hupdate⟩ <;> rw [hupdate] at h <;> cases h
  rfl

theorem error_of_delete {x : StorageError} (h : (Memory.delete k i m).1 = .error x) :
    x = Memory.notFound := by
  rcases delete_eq (k := k) (m := m) (i := i) with ⟨-, hdelete⟩ | ⟨-, es, hdelete⟩ <;>
    rw [hdelete] at h <;> cases h
  rfl

end Missing

/-! ## Operations -/

section Operations

variable [Document E] [Identifier I] {ids : IdFormat I} {limit : Nat} (c : Context) (i : I)
  (request : Request) (n out : MediaCodec) {e : E}

/-- A resource over entities in memory that are their own documents. -/
def stored (k : Identity E I) (ids : IdFormat I) (limit : Nat) : Resource (Memory E) E I :=
  { Resource.plain ids with operations := Memory.operations k, bodyReadLimit := limit }

theorem outcome_entityResponse {body : Bytes} (status : Nat)
    (hbody : out.codec.marshal (Document.toJson e) = .ok body) :
    Serving.outcome ((stored k ids limit).answer routers)
      ((stored k ids limit).entityResponse c status e out) m =
        (.ok (.ok (.ofBytes status out.mediaType body)), m) := by
  have hmapping : (((stored k ids limit).mappings.get out.mediaType).toDocument c e) =
      .ok (Document.toJson e) := rfl
  rw [entityResponse, hmapping]
  simp only [Serving.mapped, pure_bind, hbody, Serving.outcome_pure]

def missingEntity (ids : IdFormat I) (i : I) : ApiError :=
  ⟨.entityNotFound, (ids.format i).toOption.getD ""⟩

/-- What comes of an operation on an entity that has to exist. -/
def settled (ids : IdFormat I) (out : MediaCodec) (i : I) :
    Except StorageError Unit → Except ApiError (Response (Memory E))
  | .ok () => .ok (noContent out)
  | .error _ => .error (missingEntity ids i)

theorem ofDocument_eq {j : Json} (he : Document.ofJson j = .ok e) :
    (stored k ids limit).ofDocument c j n = (pure e : Serving (Memory E) E I E) := by
  have hof : ((stored k ids limit).mappings.get n.mediaType).ofDocument c j = .ok e :=
    congrArg Mapped.ofExcept he
  rw [ofDocument, hof]
  rfl

theorem outcome_create {j : Json} (hread : readDocument limit request n = .ok j)
    (he : Document.ofJson j = .ok e) :
    Serving.outcome ((stored k ids limit).answer routers)
      ((stored k ids limit).create c request n out) m =
        match Memory.create k e m with
        | (.ok created, m') => Serving.outcome ((stored k ids limit).answer routers)
            ((stored k ids limit).entityResponse c 201 created out) m'
        | (.error x, m') => (.ok (.error x.toApi), m') := by
  unfold create
  have hoffered : (stored k ids limit).operations.create.isNone = false := rfl
  have hlimit : (stored k ids limit).bodyReadLimit = limit := rfl
  simp only [hoffered, hlimit, hread, Bool.false_eq_true, if_false]
  rw [Serving.outcome_bind, Serving.outcome_ofExcept, Serving.continueWith_ok, ofDocument_eq c n he, pure_bind,
    Serving.outcome_ask_bind _ (outcome_answer_create rfl c e), Serving.outcome_bind,
    outcome_persisted]
  cases hcreate : Memory.create k e m with
  | mk result m' => cases result <;> rfl

theorem outcome_show :
    Serving.outcome ((stored k ids limit).answer routers) ((stored k ids limit).show c i out) m =
      match m.find k i with
      | some e => Serving.outcome ((stored k ids limit).answer routers)
          ((stored k ids limit).entityResponse c 200 e out) m
      | none => (.ok (.error (missingEntity ids i)), m) := by
  unfold «show»
  have hoffered : (stored k ids limit).operations.find.isNone = false := rfl
  simp only [hoffered, Bool.false_eq_true, if_false]
  rw [Serving.outcome_ask_bind _ (outcome_answer_find rfl c i), Serving.outcome_bind,
    outcome_persisted]
  cases m.find k i <;> rfl

theorem outcome_requireExisting :
    Serving.outcome ((stored k ids limit).answer routers)
      ((stored k ids limit).requireExisting c i) m =
        (.ok (if (m.find k i).isSome then .ok () else .error (missingEntity ids i)), m) := by
  unfold requireExisting
  have hoffered : (stored k ids limit).operations.find.isSome = true := rfl
  simp only [hoffered, if_true]
  rw [Serving.outcome_ask_bind _ (outcome_answer_find rfl c i), Serving.outcome_bind,
    outcome_persisted]
  cases m.find k i <;> rfl

/-- The entity in a document that has the identifier of the path replaces the stored one. -/
theorem outcome_update {j : Json} (hread : readDocument limit request n = .ok j)
    (he : Document.ofJson j = .ok e) (hset : IdLens.setField "id" i e = .ok e)
    (hid : k.id e = some i) :
    Serving.outcome ((stored k ids limit).answer routers)
      ((stored k ids limit).update c i request n out) m =
        (.ok (settled ids out i (Memory.update k e m).1), (Memory.update k e m).2) := by
  unfold update
  have hoffered : (stored k ids limit).operations.update.isNone = false := rfl
  have hlimit : (stored k ids limit).bodyReadLimit = limit := rfl
  have hlens : (stored k ids limit).idLens.set i e = .ok e := hset
  simp only [hoffered, hlimit, hread, Bool.false_eq_true, if_false]
  rw [Serving.outcome_bind, Serving.outcome_ofExcept, Serving.continueWith_ok, Serving.outcome_bind,
    outcome_requireExisting]
  rcases update_eq hid with ⟨hfind, hupdate⟩ | ⟨hfind, es, hupdate⟩
  · rw [hfind, hupdate]
    rfl
  -- The entity exists, and it is looked up before the document is read as an entity.
  · simp only [hfind, if_true, Serving.continueWith_ok]
    rw [ofDocument_eq c n he, pure_bind]
    simp only [hlens]
    rw [Serving.outcome_ask_bind _ (outcome_answer_update rfl c e), hupdate]
    rfl

theorem outcome_destroy :
    Serving.outcome ((stored k ids limit).answer routers) ((stored k ids limit).destroy c i out) m =
      (.ok (settled ids out i (Memory.delete k i m).1), (Memory.delete k i m).2) := by
  unfold destroy
  have hoffered : (stored k ids limit).operations.destroy.isNone = false := rfl
  simp only [hoffered, Bool.false_eq_true, if_false]
  rw [Serving.outcome_bind, outcome_requireExisting]
  rcases delete_eq (k := k) (i := i) (m := m) with ⟨hfind, hdelete⟩ | ⟨hfind, es, hdelete⟩
  · rw [hfind, hdelete]
    rfl
  · simp only [hfind, if_true, Serving.continueWith_ok]
    rw [Serving.outcome_ask_bind _ (outcome_answer_destroy rfl c i), hdelete]
    rfl

theorem outcome_destroyAll :
    Serving.outcome ((stored k ids limit).answer routers) ((stored k ids limit).destroyAll c out) m =
      (.ok (.ok (noContent out)), m.deleteAll) := by
  rw [destroyAll_eq rfl, Serving.outcome_ask_bind _ (outcome_answer_destroyAll rfl c)]
  rfl

end Operations

end WebResource.Resource
