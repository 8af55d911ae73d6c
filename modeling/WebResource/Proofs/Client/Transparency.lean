import WebResource.Proofs.Client.Listing

namespace WebResource.Client

/-!
# The wire is transparent

A linked client stands for the entities in memory behind it: a run of operations over the client
gives what the same run on the entities gives, and leaves the same entities behind.
-/

variable {S E I : Type}

/-! ## Operations -/

/-- An operation on all entities of a kind. A list is read up to some number of entities. -/
inductive Op (E I : Type) where
  | create (e : E)
  | findById (i : I)
  | update (e : E)
  | deleteById (i : I)
  | deleteAll
  | findAll (count : Nat)

inductive Reply (E : Type) where
  | created (r : Except ClientError E)
  | found (r : Except ClientError (Option E))
  | done (r : Except ClientError Unit)
  | listed (rs : List (Except ClientError E))

namespace Op

def send (client : Client S E I) (c : Context) : Op E I → Act (Timed S) (Reply E)
  | create e => (client.create c e).run.bind fun r => .done (.created r)
  | findById i => (client.findById c i).run.bind fun r => .done (.found r)
  | update e => (client.update c e).run.bind fun r => .done (.done r)
  | deleteById i => (client.deleteById c i).run.bind fun r => .done (.done r)
  | deleteAll => (client.deleteAll c).run.bind fun r => .done (.done r)
  | findAll count => (client.firstOf c count).bind fun rs => .done (.listed rs)

variable [DecidableEq I] {k : Identity E I} {ids : IdFormat I} {P : E → Prop} {Q : I → Prop}
  {codec : Codec} {limit : Nat} {m : Memory E}

/-- What an operation on the entities in memory gives, with errors as a client reports them. -/
def apply (k : Identity E I) (ids : IdFormat I) (m : Memory E) : Op E I → Reply E × Memory E
  | create e => (.created ((Memory.create k e m).1.mapError (reported ids none)), (Memory.create k e m).2)
  | findById i => (.found (.ok (m.find k i)), m)
  | update e => (.done ((Memory.update k e m).1.mapError (reported ids (k.id e))), (Memory.update k e m).2)
  | deleteById i =>
    (.done ((Memory.delete k i m).1.mapError (reported ids (some i))), (Memory.delete k i m).2)
  | deleteAll => (.done (.ok ()), m.deleteAll)
  | findAll count => (.listed ((m.entities.take count).map .ok), m)

/-- An operation that can be sent: on entities with `P` and identifiers with `Q`, with documents
within the limit. An entity that is updated has an identifier, and a list has a format. -/
def Admissible [Document E] (k : Identity E I) (P : E → Prop) (Q : I → Prop) (codec : Codec)
    (limit : Nat) : Op E I → Prop
  | create e => P e ∧ Bounded codec limit e
  | findById i => Q i
  | update e => P e ∧ (k.id e).isSome ∧ Bounded codec limit e
  | deleteById i => Q i
  | deleteAll => True
  | findAll _ => codec.streaming.isSome

end Op

/-- Entities in memory that all have `P`, with no error set up. -/
structure Sound (P : E → Prop) (m : Memory E) : Prop where
  entities : ∀ e ∈ m.entities, P e
  injected : m.injected = none

theorem sound_empty (P : E → Prop) : Sound P Memory.empty := ⟨nofun, rfl⟩

section Preservation

variable [DecidableEq I] {k : Identity E I} {ids : IdFormat I} {P : E → Prop} {Q : I → Prop}
  {base : String} {m : Memory E} {e : E}

theorem Sound.create (hset : ∀ e n, P e → P (k.setId (k.fresh n) e)) (h : Sound P m) (he : P e) :
    Sound P (Memory.create k e m).2 := by
  unfold Memory.create
  cases hid : k.id e with
  | some i =>
      simp only
      split
      · exact h
      · refine ⟨fun e' he' => ?_, h.injected⟩
        rcases List.mem_append.mp he' with he' | he'
        · exact h.entities e' he'
        · exact List.mem_singleton.mp he' ▸ he
  | none =>
      refine ⟨fun e' he' => ?_, h.injected⟩
      rcases List.mem_append.mp he' with he' | he'
      · exact h.entities e' he'
      · exact List.mem_singleton.mp he' ▸ hset e m.sequence he

theorem Sound.update (h : Sound P m) (he : P e) : Sound P (Memory.update k e m).2 := by
  unfold Memory.update
  cases k.id e with
  | none => exact h
  | some i =>
      simp only
      cases hreplaced : Repository.replaceFirst (Memory.hasId k i) e m.entities with
      | none => exact h
      | some es =>
          refine ⟨fun e' he' => ?_, h.injected⟩
          rcases Repository.mem_replaceFirst hreplaced he' with rfl | he'
          · exact he
          · exact h.entities e' he'

theorem Sound.delete (h : Sound P m) (i : I) : Sound P (Memory.delete k i m).2 := by
  unfold Memory.delete
  simp only
  split
  · exact h
  · exact ⟨fun e' he' => h.entities e' (List.mem_filter.mp he').1, h.injected⟩

theorem Sound.apply [Document E] [Identifier I] {codec : Codec} {limit : Nat} {op : Op E I}
    (hportable : Portable k ids base P Q) (h : Sound P m) (hop : op.Admissible k P Q codec limit) : Sound P (op.apply k ids m).2 := by
  cases op with
  | create e => exact h.create hportable.setId hop.1
  | findById i => exact h
  | update e => exact h.update hop.1
  | deleteById i => exact h.delete i
  | deleteAll => exact ⟨nofun, h.injected⟩
  | findAll count => exact h

end Preservation

/-! ## Runs -/

section Runs

variable [DecidableEq I] [Document E] [Identifier I] {client : Client (Memory E) E I}
  {k : Identity E I} {limit : Nat} {c : Context} {codec : Codec} {P : E → Prop} {Q : I → Prop}
  {w : Timed (Memory E)}

theorem outcome_op {base : String} {path : List String} {op : Op E I}
    (h : Linked client k limit c codec base path) (hportable : Portable k client.ids base P Q)
    (hlive : c.err w.time = none) (hsound : Sound P w.inner)
    (hop : op.Admissible k P Q codec limit) :
    Act.outcome (op.send client c) w =
      (.ok (op.apply k client.ids w.inner).1,
        { w with inner := (op.apply k client.ids w.inner).2 }) := by
  cases op with
  | create e =>
      have hcreate := h.outcome_create hportable hlive hop.1 hop.2
      rw [Op.send, Act.outcome_bind]
      exact congrArg (Act.continueWith · _) hcreate
  | findById i =>
      have hfind := h.outcome_findById hportable hlive hop hsound.entities
      rw [Op.send, Act.outcome_bind]
      exact congrArg (Act.continueWith · _) hfind
  | update e =>
      obtain ⟨he, hid, hbounded⟩ := hop
      obtain ⟨i, hi⟩ := Option.isSome_iff_exists.mp hid
      have hupdate := h.outcome_update hportable hlive he hi hbounded
      rw [← hi] at hupdate
      rw [Op.send, Act.outcome_bind]
      exact congrArg (Act.continueWith · _) hupdate
  | deleteById i =>
      have hdelete := h.outcome_deleteById hportable hlive hop
      rw [Op.send, Act.outcome_bind]
      exact congrArg (Act.continueWith · _) hdelete
  | deleteAll =>
      have hdelete := h.outcome_deleteAll hlive
      rw [Op.send, Act.outcome_bind]
      exact congrArg (Act.continueWith · _) hdelete
  | findAll count =>
      have hlist := h.outcome_firstOf hlive hop hsound.injected
        (fun e he => hportable.returns e (hsound.entities e he)) count
      rw [Op.send, Act.outcome_bind]
      exact congrArg (Act.continueWith · _) hlist

/-- Operations that a client sends one after the other, each in a context of its own. -/
def sendAll {S : Type} (client : Client S E I) : List (Context × Op E I) → Act (Timed S) (List (Reply E))
  | [] => .done []
  | (c, op) :: calls => (op.send client c).bind fun r =>
    (sendAll client calls).bind fun rs => .done (r :: rs)

def applyAll (k : Identity E I) (ids : IdFormat I) (m : Memory E) :
    List (Op E I) → List (Reply E) × Memory E
  | [] => ([], m)
  | op :: ops =>
    let (r, m) := op.apply k ids m
    let (rs, m) := applyAll k ids m ops
    (r :: rs, m)

/-- A run over a linked client gives what the same run on the entities gives. -/
theorem outcome_sendAll {calls : List (Context × Op E I)} (hsound : Sound P w.inner)
    (hcalls : ∀ p ∈ calls, p.1.err w.time = none ∧ p.2.Admissible k P Q codec limit ∧
      ∃ base path, Linked client k limit p.1 codec base path ∧ Portable k client.ids base P Q) :
    Act.outcome (sendAll client calls) w =
      (.ok (applyAll k client.ids w.inner (calls.map (·.2))).1,
        { w with inner := (applyAll k client.ids w.inner (calls.map (·.2))).2 }) := by
  -- What an operation leaves behind is sound again, so the next one finds entities that get through.
  induction calls generalizing w with
  | nil => rfl
  | cons p calls ih =>
      obtain ⟨c, op⟩ := p
      obtain ⟨hlive, hop, base, path, hlinked, hportable⟩ := hcalls _ List.mem_cons_self
      have hrest := ih (w := { w with inner := (op.apply k client.ids w.inner).2 })
        (hsound.apply hportable hop) fun q hq => hcalls q (List.mem_cons_of_mem _ hq)
      rw [sendAll, Act.outcome_bind, outcome_op hlinked hportable hlive hsound hop,
        Act.continueWith_ok, Act.outcome_bind, hrest]
      rfl

end Runs

end WebResource.Client
