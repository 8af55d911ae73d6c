import WebResource.Client.Operations
import WebResource.Proofs.Negotiation
import WebResource.Proofs.Problem
import WebResource.Proofs.Resource.Listing
import WebResource.Proofs.Transport.Exchange

namespace WebResource

/-!
# What a client makes of a response

The parts of a call, once the response has come: the body is read or dropped, and the entity or the
error in it is taken out.
-/

variable {S E I α β : Type} {w w' : Timed S}

/-! ## Calls -/

namespace Calling

/-- The result of a call and the state at the end. -/
def outcome (x : Calling S α) (w : Timed S) : Except Payload (Except ClientError α) × Timed S :=
  Act.outcome x.run w

theorem outcome_bind_ok {x : Calling S α} {a : α} (h : outcome x w = (.ok (.ok a), w'))
    (f : α → Calling S β) : outcome (x >>= f) w = outcome (f a) w' := by
  change Act.outcome (Prog.bind x.run _) w = _
  rw [Act.outcome_bind]
  change Act.continueWith (outcome x w) _ = _
  rw [h]
  rfl

theorem outcome_lift {x : Act (Timed S) α} {a : α} (h : Act.outcome x w = (.ok a, w')) :
    outcome (Calling.lift x) w = (.ok (.ok a), w') := by
  change Act.outcome (Prog.bind x _) w = _
  rw [Act.outcome_bind, h]
  rfl

theorem outcome_ofExcept {ε : Type} (toError : ε → ClientError) (a : α) (w : Timed S) :
    outcome (Calling.ofExcept toError (.ok a)) w = (.ok (.ok a), w) := rfl

end Calling

/-! ## Bodies -/

namespace Body

variable {b : Body S} {watch : Option Context} {frames : List Frame}

/-- A context that is watched, if any, is not done. -/
def Live (watch : Option Context) (w : Timed S) : Prop := ∀ c, watch = some c → c.err w.time = none

theorem live_some {c : Context} (h : c.err w.time = none) : Live (some c) w := by
  rintro c' ⟨⟩
  exact h

theorem outcome_interruption (h : Live watch w) : Act.outcome (interruption watch) w = (.ok none, w) := by
  change Act.outcome (Act.get.bind _) w = _
  rw [Act.outcome_bind, Act.outcome_get, Act.continueWith_ok]
  cases watch with
  | none => rfl
  | some c => exact congrArg (fun e => (Except.ok e, w)) (h c rfl)

theorem outcome_await (h : Live watch w) (frame : Frame) :
    Act.outcome (await watch (.data frame)) w = (.ok (.data frame.data), w) := by
  change Act.outcome ((interruption watch).bind _) w = _
  rw [Act.outcome_bind, outcome_interruption h, Act.continueWith_ok]
  exact Act.outcome_logs _ _ w

theorem outcome_collect (h : Live watch w) (read : Bytes) :
    Act.outcome (collect watch read (frames.map .data)) w =
      (.ok (.ok (read ++ (frames.map Frame.data).flatten)), w) := by
  induction frames generalizing read with
  | nil =>
      change Act.outcome ((interruption watch).bind _) w = _
      rw [Act.outcome_bind, outcome_interruption h, Act.continueWith_ok, List.map_nil,
        List.flatten_nil, List.append_nil]
      rfl
  | cons frame frames ih =>
      change Act.outcome ((await watch (.data frame)).bind _) w = _
      rw [Act.outcome_bind, outcome_await h, Act.continueWith_ok, ih, List.map_cons,
        List.flatten_cons, List.append_assoc]

/-- Whether the chunk was the last one or not, the same is left behind at the end of the body. -/
theorem outcome_advance (b : Body S) (chunks : List Chunk) (w : Timed S) :
    ∃ b' s, Act.outcome (b.advance chunks) w = (.ok b', { w with inner := s }) ∧
      b'.watch = b.watch ∧ b'.release s = b.release w.inner := by
  cases chunks with
  | nil => exact ⟨{ b with chunks := [], release := id }, b.release w.inner, rfl, rfl, rfl⟩
  | cons chunk chunks => exact ⟨{ b with chunks := chunk :: chunks }, w.inner, rfl, rfl, rfl⟩

theorem outcome_drop (b : Body S) (w : Timed S) :
    Act.outcome b.drop w = (.ok (), { w with inner := b.release w.inner }) := rfl

theorem outcome_bytes (hchunks : b.chunks = frames.map .data) (h : Live b.watch w) :
    Act.outcome b.bytes w =
      (.ok (.ok (frames.map Frame.data).flatten), { w with inner := b.release w.inner }) := by
  change Act.outcome ((collect b.watch [] b.chunks).bind _) w = _
  rw [Act.outcome_bind, hchunks, outcome_collect h, Act.continueWith_ok]
  rfl

end Body

/-! ## Responses -/

namespace Client

variable {k : Client S E I} {c : Context} {mediaType : String} {codec : Codec}

theorem outcome_send {method url : String} {body : Bytes} {q : TransportRequest}
    {response : TransportResponse S}
    (hq : buildRequest method url k.codec.mediaType body = .ok q)
    (h : Act.outcome (k.transport c q) w = (.ok (.ok response), w')) :
    Calling.outcome (k.send c method url body) w = (.ok (.ok response), w') := by
  have hlog : Calling.outcome (Calling.lift (Prog.tell (.debug s!"Sending {method} {url}"))) w =
      (.ok (.ok ()), w) := Calling.outcome_lift rfl
  rw [send, Calling.outcome_bind_ok hlog, hq,
    Calling.outcome_bind_ok (Calling.outcome_ofExcept _ q _),
    Calling.outcome_bind_ok (Calling.outcome_lift h)]
  rfl

theorem outcome_discard (r : TransportResponse S) (w : Timed S) :
    Calling.outcome (discard r) w = (.ok (.ok ()), { w with inner := r.body.release w.inner }) :=
  Calling.outcome_lift (Body.outcome_drop r.body w)

section Codecs

variable (hcodecs : k.codecs = [])

include hcodecs

theorem responseCodec_eq (h : Known mediaType codec) :
    k.responseCodec [("content-type", Utf8.encode mediaType)] = ⟨mediaType, codec⟩ := by
  rw [responseCodec, h.contentType_eq, hcodecs]
  exact h.lookupOrJson_eq

variable [Document E] {e : E} {body : Bytes} {j : Json}

theorem outcome_entityIn (hknown : Known mediaType codec) (hmappings : k.mappings = .ofDefault .identity)
    (hbody : codec.unmarshal body = .ok j) (he : Document.ofJson j = .ok e) (hlive : c.err w.time = none)
    (status : Nat) :
    Calling.outcome (k.entityIn c (Response.ofBytes status mediaType body).delivered) w =
      (.ok (.ok e), w) := by
  have hmapped : (k.mappings.get mediaType).ofDocument c j = .ok e := by
    rw [hmappings]
    exact congrArg Mapped.ofExcept he
  have hbytes : Act.outcome
      ((Response.ofBytes status mediaType body : Response S).delivered.body.cancellable c).bytes w =
        (.ok (.ok (((Response.whole body).map Frame.data).flatten)), w) :=
    Body.outcome_bytes rfl (Body.live_some hlive)
  rw [Response.flatten_whole] at hbytes
  rw [entityIn, Calling.outcome_bind_ok (Calling.outcome_lift hbytes),
    Calling.outcome_bind_ok (Calling.outcome_ofExcept _ body _)]
  have hcodec : k.responseCodec (Response.ofBytes status mediaType body : Response S).delivered.headers =
      ⟨mediaType, codec⟩ := responseCodec_eq hcodecs hknown
  simp only [hcodec, hbody]
  rw [Calling.outcome_bind_ok (Calling.outcome_ofExcept _ j _), hmapped]
  rfl

omit [Document E] in
theorem outcome_conflict {detail : String} (hspoken : Spoken mediaType codec) (hdetail : detail ≠ "")
    (url path : String) :
    Calling.outcome (k.conflict (α := E) url (((⟨.entityAlreadyExists, detail⟩ : ApiError).render
      ⟨mediaType, codec⟩ path).2 : Response S).delivered) w =
        (.ok (.error (.alreadyExists detail)), w) := by
  let x : ApiError := ⟨.entityAlreadyExists, detail⟩
  obtain ⟨body, j, hrender, hj, hproblem⟩ := x.render_eq (S := S) hspoken.known path
  have hlive : Body.Live none w := nofun
  have hbytes : Act.outcome
      (Response.ofBytes x.kind.status (ApiError.problemMedia mediaType) body : Response S).delivered.body.bytes
        w = (.ok (.ok (((Response.whole body).map Frame.data).flatten)), w) :=
    Body.outcome_bytes rfl hlive
  have herror : k.problemOf (Response.ofBytes x.kind.status (ApiError.problemMedia mediaType) body :
      Response S).delivered.headers body = some x := by
    have hcodec : k.responseCodec (Response.ofBytes x.kind.status (ApiError.problemMedia mediaType)
        body : Response S).delivered.headers = ⟨ApiError.problemMedia mediaType, codec⟩ :=
      responseCodec_eq hcodecs hspoken.known.problem
    rw [problemOf, hcodec]
    simp only [hj, hproblem]
    exact x.toError_toProblem path
  rw [Response.flatten_whole] at hbytes
  rw [hrender, conflict, Calling.outcome_bind_ok (Calling.outcome_lift hbytes)]
  simp only [herror, x, if_neg hdetail]
  rfl

end Codecs

end Client

end WebResource
