import WebResource.Proofs.Client.Paths
import WebResource.Proofs.Client.Receiving

namespace WebResource.Client

/-!
# Clients of a mounted resource

A client whose base URL leads to a resource over entities in memory, with the codecs and the mapping
that both have by default. What it sends to the collection or to an entity is served by the resource,
and the response comes back.
-/

variable {E I : Type}

/-! ## URLs -/

/-- A URL at which a collection is served, with or without a slash behind it. -/
structure BasedAt (base : String) (path : List String) : Prop where
  isPathPart : ∀ c ∈ base.toList, Uri.IsPathPart c
  collection : ∃ u, Uri.parse base = .ok u ∧ Path.segments u.path = path
  below : ∃ u, Uri.parse (Text.dropEnd '/' base ++ "/") = .ok u ∧ Path.segments u.path = path

theorem isPathChar_encodeSegment (s : String) :
    (Percent.encodeSegment s).toList.all Uri.isPathChar = true := by
  have hall : ∀ n < 0x80, Percent.isSegmentChar (Char.ofNat n) = true →
      Uri.isPathChar (Char.ofNat n) = true := by decide +kernel
  rw [List.all_eq_true]
  intro c hc
  have hsegment := Percent.isSegmentChar_of_mem hc
  have hlt : c.toNat < 0x80 := by
    rw [Percent.isSegmentChar, Bool.and_eq_true, decide_eq_true_eq] at hsegment
    exact hsegment.1
  have hchar := hall c.toNat hlt
  rw [Char.ofNat_toNat] at hchar
  exact hchar hsegment

theorem BasedAt.entity {base text : String} {path : List String} (h : BasedAt base path)
    (hempty : text ≠ "") (hdot : text ≠ ".") (hparent : text ≠ "..")
    (hroom : (Text.dropEnd '/' base ++ "/" ++ Percent.encodeSegment text).utf8ByteSize ≤
      Uri.maxLength) :
    ∃ u, Uri.parse (Text.dropEnd '/' base ++ "/" ++ Percent.encodeSegment text) = .ok u ∧
      Path.segments u.path = path ++ [Percent.encodeSegment text] := by
  obtain ⟨v, hv, hpath⟩ := h.below
  obtain ⟨u, hu⟩ := Uri.exists_parse_slash (Text.getLast?_dropEnd '/' base)
    ((isPathPart_dropEnd_iff base).mpr h.isPathPart) (fun c hc => isSegmentPart_of_mem hc)
    (isPathChar_encodeSegment text) hroom hv
  refine ⟨u, hu, ?_⟩
  rw [segments_of_addressable hu hv ⟨h.isPathPart, hempty, hdot, hparent⟩, hpath]

/-! ## Links -/

variable [DecidableEq I] [Document E] [Identifier I]

/-- A client that is linked to a resource over entities in memory. -/
structure Linked (client : Client (Memory E) E I) (k : Identity E I) (limit : Nat) (c : Context)
    (codec : Codec) (base : String) (path : List String) : Prop where
  spoken : Spoken client.mediaType codec
  codecs : client.codecs = []
  mappings : client.mappings = .ofDefault .identity
  idLens : client.idLens = .byField "id"
  contextHook : client.contextHook = id
  collectionUrl : client.collectionUrl c = .ok base
  basedAt : BasedAt base path
  transport : ∃ (t : Routes (Memory E)) (root : NodeId),
    client.transport = .ofHandler (.ofRouter root) t ∧
      t.Serves root path (Resource.stored k client.ids limit).handler

namespace Linked

variable {client : Client (Memory E) E I} {k : Identity E I} {limit : Nat} {c : Context}
  {codec : Codec} {base url method : String} {path rest : List String} {body : Bytes} {u : Uri}
  {w : Timed (Memory E)} {result : Except ApiError (Response (Memory E))} {m' : Memory E}
  (h : Linked client k limit c codec base path)

include h

theorem codec_eq : client.codec = ⟨client.mediaType, codec⟩ := by
  rw [Client.codec, h.codecs]
  exact h.spoken.known.lookupOrJson_eq

theorem buildRequest_eq (hu : Uri.parse url = .ok u) :
    buildRequest method url client.codec.mediaType body =
      .ok ⟨method, u, Spoken.requestHeaders client.mediaType, body⟩ := by
  rw [h.codec_eq]
  simp only [buildRequest, hu, h.spoken.isSendable, if_true]
  rfl

theorem outcome_send (hlive : c.err w.time = none) (hu : Uri.parse url = .ok u)
    (hpath : Path.segments u.path = path ++ rest)
    (hserve : ∀ routers request, request.method = method → request.routing.left = rest →
      request.headers = Spoken.requestHeaders client.mediaType → request.chunks = [.ok body] →
      Resource.Serving.outcome ((Resource.stored k client.ids limit).answer routers)
        ((Resource.stored k client.ids limit).perform request ⟨client.mediaType, codec⟩
          ⟨client.mediaType, codec⟩) w.inner = (.ok result, m')) :
    Calling.outcome (client.send c method url body) w =
      (.ok (.ok (Resource.answered ⟨client.mediaType, codec⟩ u.path result).delivered),
        { w with inner := m' }) := by
  obtain ⟨t, root, htransport, hserves⟩ := h.transport
  refine Client.outcome_send (h.buildRequest_eq hu) ?_
  rw [htransport]
  exact Transport.outcome_ofHandler h.spoken hserves hpath rfl hlive hserve

end Linked

end WebResource.Client
