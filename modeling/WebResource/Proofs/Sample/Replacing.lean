import WebResource.Proofs.Resource.Gating
import WebResource.Proofs.Sample.Identifiers
import WebResource.Sample.Kind

namespace WebResource.Sample

/-!
# The path decides which entity is replaced

Whatever a body says about the identifier of an entity, the entity that is to be stored has the one in
the path, and otherwise what is in the body.
-/

variable {S : Type} {k : Kind} {i : k.I} {before after e : k.E}

/-! ## Entities with an identifier that has been set -/

theorem Foo.id_of_assigned {i : String} {before after : Foo}
    (h : IdLens.Assigned "id" i before after) : after.id = some i := by
  apply h.eq_some fun _ _ => Json.str.inj
  rw [record.toJson_eq]
  exact record.findField_id after

theorem Counter.id_of_assigned {i : Int} {before after : Counter}
    (h : IdLens.Assigned "id" i before after) : after.id = some i := by
  apply h.eq_some fun _ _ => Json.int.inj
  rw [toJson_eq]
  exact findField_id after

theorem Doc.id_of_setField {i : String} {before after : Json}
    (h : IdLens.setField "id" i before = .ok after) : Doc.id after = some i := by
  obtain ⟨fs, -, hread⟩ := IdLens.read_of_setField h
  cases hread
  rw [Doc.id, Json.get?, Json.findField_insertField]
  rfl

/-- The kinds of entities whose identifier is in their field `id`. -/
def Kind.Identified (k : Kind) : Prop := k = .foo ∨ k = .counter ∨ k = .doc

theorem Kind.Identified.assigned (hk : k.Identified) (h : IdLens.setField "id" i before = .ok after) :
    k.identity.id after = some i ∧ IdLens.Assigned "id" i before after := by
  rcases hk with rfl | rfl | rfl
  · have hassigned := IdLens.assigned_of_recorded Foo.recorded (by decide) (by nofun) h
    exact ⟨Foo.id_of_assigned hassigned, hassigned⟩
  · have hassigned := IdLens.assigned_of_recorded Counter.recorded (by decide) (by nofun) h
    exact ⟨Counter.id_of_assigned hassigned, hassigned⟩
  · exact ⟨Doc.id_of_setField h, IdLens.assigned_of_document h⟩

/-! ## Requests to replace an entity -/

/-- The path of a request has an identifier. -/
def InPath (r : Resource S k.E k.I) (request : Request) (i : k.I) : Prop :=
  ∃ raw cursor, request.routing.shift = (some raw, cursor) ∧
    r.ids.parse (Percent.decodeSegment raw) = .ok i

/-- The body of a request, as a whole, is decoded to an entity. -/
def InBody (r : Resource S k.E k.I) (request : Request) (e : k.E) : Prop :=
  ∃ (pieces : List Bytes) (document : Json), request.chunks = pieces.map .ok ∧
    (MediaCodec.forRequest request.headers r.codecs).codec.unmarshal pieces.flatten = .ok document ∧
      Document.ofJson document = .ok e

/-- An entity has the identifier in the path of a request, and all its other fields are those of the
entity in the body. -/
def Replaces (r : Resource S k.E k.I) (request : Request) (e : k.E) : Prop :=
  ∃ i before, InPath r request i ∧ InBody r request before ∧ k.identity.id e = some i ∧
    ∀ name, name ≠ "id" → (Document.toJson e).get? name = (Document.toJson before).get? name

theorem ofJson_of_identity {E : Type} [Document E] {c : Context} {document : Json} {e : E}
    (h : (Mapping.identity : Mapping E).ofDocument c document = .ok e) :
    Document.ofJson document = .ok e := by
  change Mapped.ofExcept (Document.ofJson document) = _ at h
  cases hread : (Document.ofJson document : Except TypeError E) with
  | error x =>
      rw [hread] at h
      cases h
  | ok e' =>
      rw [hread] at h
      cases h
      rfl

/-- The entity with which a resource asks for an update has the identifier in the path, whichever is
in the body, and nothing else of the body is lost. -/
theorem update_identified (hk : k.Identified) (r : Resource S k.E k.I)
    (hmapping : ∀ mediaType, r.mappings.get mediaType = .identity) (hlens : r.idLens = .byField "id")
    (routers : NodeId → Service S) (request : Request) {calls : Resource.Calls S k.E k.I}
    (h : Prog.Trace (r.Answers routers) (r.serve request) calls) {c : Context} {e : k.E}
    (he : ∃ call ∈ calls, call.question = .update c e) : Replaces r request e := by
  obtain ⟨call, hcall, hquestion⟩ := he
  obtain ⟨past, later, hcalls⟩ := List.append_of_mem hcall
  have hgate : r.Gate request past call.question :=
    Resource.serve_guarded.allowed_of_trace h hcalls
  rw [hquestion] at hgate
  obtain ⟨-, cursor, i, before, -, ⟨raw, hshift, hid, -⟩, hreceived, hset, -⟩ := hgate.1
  obtain ⟨pieces, document, hchunks, -, hdocument, hbefore⟩ := hreceived
  rw [hmapping] at hbefore
  rw [hlens] at hset
  obtain ⟨hidentity, hassigned⟩ := hk.assigned hset
  exact ⟨i, before, ⟨raw, cursor, hshift, hid⟩,
    ⟨pieces, document, hchunks, hdocument, ofJson_of_identity hbefore⟩, hidentity,
    hassigned.others⟩

/-- Counters of which only the replacing is offered. -/
def replaceable : Resource Unit Counter Int :=
  { (Resource.plain Kind.counter.ids : Resource Unit Counter Int) with
    operations := { (Operations.none : Operations Unit Counter Int) with
      update := some fun _ _ => .done (.ok ()) } }

/-- A request to replace the counter 7 by one that calls itself another. -/
def renumbering : Request where
  method := "PATCH"
  uri := ⟨none, none, "/7", none⟩
  headers := []
  chunks := [.ok (Utf8.encode "\x7b\"id\":5,\"name\":\"7\",\"co"),
    .ok (Utf8.encode "unt\":1,\"enabled\":true\x7d")]
  attributes := { Attributes.empty with routing := some ⟨"/7", [], ["7"]⟩ }

/-- The counter that is to be stored is the one in the path. -/
theorem update_identified_renumbering :
    ∃ (calls : Resource.Calls Unit Counter Int) (c : Context) (e : Counter),
      Prog.Trace (replaceable.Answers fun _ _ => .panic .other) (replaceable.serve renumbering) calls ∧
        (∃ call ∈ calls, call.question = .update c e) ∧ e.id = some 7 ∧
          Replaces (k := .counter) replaceable renumbering e := by
  have htrace : Prog.Trace (replaceable.Answers fun _ _ => .panic .other) (replaceable.serve renumbering)
      [⟨.prepareResource _ 7, .ok (.ok _)⟩, ⟨.update _ ⟨some 7, "7", 1, true⟩, .ok (.ok ())⟩] :=
    .ask (.done _) (.ask (.done _) (.start _))
  exact ⟨_, _, _, htrace, ⟨_, .tail _ (.head _), rfl⟩, rfl, update_identified (k := .counter)
    (Or.inr (Or.inl rfl)) replaceable (fun _ => rfl) rfl _ renumbering htrace
    ⟨_, .tail _ (.head _), rfl⟩⟩

end WebResource.Sample
