import WebResource.Client.Operations
import WebResource.Proofs.Prog
import WebResource.Proofs.Router.Dispatch

namespace WebResource.Client

/-!
# What calls send

A call of a client is the same for every transport up to the one request that it sends, if it sends
any: it ends before, or it goes on with what the transport delivers.
-/

variable {S E I α β : Type}

def carriedBy (k : Client S E I) (send : Transport S) : Client S E I := { k with transport := send }

/-- A call that ends before anything is sent. -/
def Unsent (x : Transport S → Calling S α) : Prop := ∃ y, ∀ send, x send = y

/-- A call that sends one request, and no other, and goes on with what is delivered. -/
def Sends (x : Transport S → Calling S α) (c : Context) (q : TransportRequest) : Prop :=
  ∃ log next, ∀ send, (x send).run = .log log ((send c q).bind next)

theorem Sends.not_unsent {x : Transport S → Calling S α} {c : Context} {q : TransportRequest}
    (h : Sends x c q) : ¬Unsent x := by
  rintro ⟨y, hy⟩
  obtain ⟨log, next, hx⟩ := h
  have hother := hx fun _ _ => .panic .other
  have htext := hx fun _ _ => .panic (.text "")
  rw [hy] at hother htext
  have hpanic := hother.symm.trans htext
  simp [Prog.bind] at hpanic

/-- There is only one request that a call can send. -/
theorem Sends.unique {x : Transport S → Calling S α} {c c' : Context} {q q' : TransportRequest}
    (h : Sends x c q) (h' : Sends x c' q') : c = c' ∧ q = q' := by
  classical
  obtain ⟨log, next, hx⟩ := h
  obtain ⟨log', next', hx'⟩ := h'
  have hsame := (hx fun a b => if a = c ∧ b = q then .panic .other else .panic (.text "")).symm.trans
    (hx' fun a b => if a = c ∧ b = q then .panic .other else .panic (.text ""))
  by_cases hcq : c' = c ∧ q' = q
  · exact ⟨hcq.1.symm, hcq.2.symm⟩
  · simp [hcq, Prog.bind] at hsame

/-! ## Programs of a client -/

theorem run_bind (x : Calling S α) (f : α → Calling S β) :
    (x >>= f).run = x.run.bind fun
      | .ok a => (f a).run
      | .error e => .done (.error e) := by
  change Prog.bind x.run _ = _
  congr 1
  funext a
  cases a <;> rfl

theorem run_lift (x : Act (Timed S) α) : (Calling.lift x).run = x.bind fun a => .done (.ok a) := rfl

section Send

variable (k : Client S E I) (c : Context) (method url : String) (body : Bytes)
  (f : TransportResponse S → Calling S α)

theorem unsent_send {e : TransportError}
    (h : buildRequest method url k.codec.mediaType body = .error e) :
    Unsent fun send => (k.carriedBy send).send c method url body >>= f := by
  refine ⟨ExceptT.mk (.log (.debug s!"Sending {method} {url}") (.done (.error (.transport e)))),
    fun send => ?_⟩
  have hcodec : buildRequest method url (k.carriedBy send).codec.mediaType body = .error e := h
  simp only [Client.send, hcodec]
  rfl

theorem sends_send {q : TransportRequest}
    (h : buildRequest method url k.codec.mediaType body = .ok q) :
    Sends (fun send => (k.carriedBy send).send c method url body >>= f) c q := by
  refine ⟨.debug s!"Sending {method} {url}",
    fun d => (Calling.ofExcept .ofTransport d >>= f).run, fun send => ?_⟩
  have hcodec : buildRequest method url (k.carriedBy send).codec.mediaType body = .ok q := h
  simp only [Client.send, hcodec]
  have hlift : (Calling.lift (send c q) >>= fun d =>
      Calling.ofExcept ClientError.ofTransport d >>= f).run =
        (send c q).bind fun d => (Calling.ofExcept ClientError.ofTransport d >>= f).run := by
    rw [run_bind, run_lift, Prog.bind_assoc]
    rfl
  simp only [bind_assoc]
  exact congrArg (Prog.log _) hlift

theorem buildRequest_eq {mediaType : String} {q : TransportRequest}
    (h : buildRequest method url mediaType body = .ok q) :
    ∃ u, Uri.parse url = .ok u ∧ q.uri = u ∧ q.method = method ∧
      ∀ method' body', ∃ q', buildRequest method' url mediaType body' = .ok q' := by
  unfold buildRequest at h
  simp only at h
  split at h
  · cases h
  · next u hu =>
      split at h
      · next hmedia =>
          cases h
          refine ⟨u, hu, rfl, rfl, fun method' body' => ?_⟩
          simp only [buildRequest, hu]
          exact ⟨_, if_pos hmedia⟩
      · cases h

end Send

theorem encode_cases (k : Client S E I) (c : Context) (e : E) :
    (∃ body, k.encode c e = pure body) ∨ (∃ x, k.encode c e = throw x) ∨
      ∃ p, k.encode c e = ExceptT.lift (.panic p) := by
  simp only [encode]
  cases (k.mappings.get k.codec.mediaType).toDocument c e with
  | refused why => exact Or.inr (Or.inl ⟨_, rfl⟩)
  | panicked p => exact Or.inr (Or.inr ⟨p, rfl⟩)
  | ok document =>
      cases hbody : k.codec.codec.marshal document with
      | error x => exact Or.inr (Or.inl ⟨.codec x, by simp only [Calling.mapped, pure_bind, hbody]; rfl⟩)
      | ok body => exact Or.inl ⟨body, by simp only [Calling.mapped, pure_bind, hbody]; rfl⟩

/-! ## Calls on single entities -/

/-- A call that sends at most one request, and that for a URL. -/
def SendsTo (k : Client S E I) (url : String) (x : Transport S → Calling S α) : Prop :=
  Unsent x ∨ ∃ c method body q,
    buildRequest method url k.codec.mediaType body = .ok q ∧ Sends x c q

/-- What a lookup makes of a response. -/
def found (k : Client S E I) (c : Context) (url : String) (r : TransportResponse S) :
    Calling S (Option E) := do
  if Status.isSuccess r.status then return some (← k.entityIn c r)
  else if r.status = 404 then
    discard r
    return none
  else unexpected url r

section Entity

variable {k : Client S E I} {c : Context} {i : I} {url : String}

theorem sendsTo_of_eq {x : Transport S → Calling S α} (method : String) (body : Bytes)
    (f : TransportResponse S → Calling S α)
    (h : ∀ send, x send = (k.carriedBy send).send c method url body >>= f) : SendsTo k url x := by
  obtain rfl : x = fun send => (k.carriedBy send).send c method url body >>= f := funext h
  cases hq : buildRequest method url k.codec.mediaType body with
  | error e => exact Or.inl (unsent_send k c method url body f hq)
  | ok q => exact Or.inr ⟨c, method, body, q, hq, sends_send k c method url body f hq⟩

variable (hurl : k.entityUrl (k.contextHook c) i = .ok url)

include hurl

theorem entityUrl_carriedBy (send : Transport S) :
    Calling.ofExcept (S := S) id ((k.carriedBy send).entityUrl (k.contextHook c) i) = pure url := by
  have hcarried : (k.carriedBy send).entityUrl (k.contextHook c) i = .ok url := hurl
  rw [hcarried]
  rfl

theorem findById_eq (send : Transport S) : (k.carriedBy send).findById c i =
    (k.carriedBy send).send (k.contextHook c) "GET" url [] >>= k.found (k.contextHook c) url := by
  change Calling.ofExcept id ((k.carriedBy send).entityUrl (k.contextHook c) i) >>= _ = _
  rw [entityUrl_carriedBy hurl, pure_bind]
  rfl

theorem deleteById_eq (send : Transport S) : (k.carriedBy send).deleteById c i =
    (k.carriedBy send).send (k.contextHook c) "DELETE" url [] >>= k.settle i url := by
  change Calling.ofExcept id ((k.carriedBy send).entityUrl (k.contextHook c) i) >>= _ = _
  rw [entityUrl_carriedBy hurl, pure_bind]
  rfl

theorem update_eq {e : E} (he : k.idLens.get e = some i) (send : Transport S) :
    (k.carriedBy send).update c e = k.encode (k.contextHook c) e >>= fun body =>
      (k.carriedBy send).send (k.contextHook c) "PUT" url body >>= k.settle i url := by
  have hcarried : (k.carriedBy send).idLens.get e = some i := he
  simp only [update, hcarried]
  change Calling.ofExcept id ((k.carriedBy send).entityUrl (k.contextHook c) i) >>= _ = _
  rw [entityUrl_carriedBy hurl, pure_bind]
  rfl

theorem findById_sendsTo : SendsTo k url fun send => (k.carriedBy send).findById c i :=
  sendsTo_of_eq "GET" [] (k.found (k.contextHook c) url) (findById_eq hurl)

theorem deleteById_sendsTo : SendsTo k url fun send => (k.carriedBy send).deleteById c i :=
  sendsTo_of_eq "DELETE" [] (k.settle i url) (deleteById_eq hurl)

theorem update_sendsTo {e : E} (he : k.idLens.get e = some i) :
    SendsTo k url fun send => (k.carriedBy send).update c e := by
  have heq := update_eq hurl he
  rcases encode_cases k (k.contextHook c) e with ⟨body, hbody⟩ | ⟨x, hx⟩ | ⟨p, hp⟩
  · refine sendsTo_of_eq (c := k.contextHook c) "PUT" body (k.settle i url) fun send => ?_
    rw [heq, hbody, pure_bind]
  · refine Or.inl ⟨throw x, fun send => ?_⟩
    simp only [heq, hx]
    rfl
  · refine Or.inl ⟨ExceptT.lift (.panic p), fun send => ?_⟩
    simp only [heq, hp]
    rfl

end Entity

end WebResource.Client
