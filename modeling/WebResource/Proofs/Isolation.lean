import WebResource.Proofs.Contract
import WebResource.Proofs.Outcome
import WebResource.Router.Handler

namespace WebResource

/-!
# Programs that touch and see a part of the state

A program that is isolated from a part of the state leaves that part as it is, and comes to the same result
from states that differ in that part only. Such programs make up such programs, and one that is answered by
them is one too.
-/

namespace Act

variable {S α β γ : Type}

theorem outcome_bind_of_ok {x : Act S α} {s : S} {a : α} (f : α → Act S β)
    (h : (outcome x s).1 = .ok a) : outcome (x.bind f) s = outcome (f a) (outcome x s).2 := by
  have hx : outcome x s = (.ok a, (outcome x s).2) := Prod.ext h rfl
  rw [outcome_bind, hx, continueWith_ok]

theorem outcome_bind_of_error {x : Act S α} {s : S} {p : Payload} (f : α → Act S β)
    (h : (outcome x s).1 = .error p) : outcome (x.bind f) s = (.error p, (outcome x s).2) := by
  have hx : outcome x s = (.error p, (outcome x s).2) := Prod.ext h rfl
  rw [outcome_bind, hx, continueWith_error]

/-- A program that leaves a part of the state as it is and cannot tell states apart that are alike, which
stay alike. What it ends with, if it ends, is wanted. -/
structure Isolated (kept : S → γ) (alike : S → S → Prop) (post : α → Prop) (x : Act S α) : Prop where
  preserves : Preserves kept x
  agrees : ∀ s₁ s₂, alike s₁ s₂ →
    (outcome x s₁).1 = (outcome x s₂).1 ∧ alike (outcome x s₁).2 (outcome x s₂).2
  ends : ∀ s a, (outcome x s).1 = .ok a → post a

namespace Isolated

variable {kept : S → γ} {alike : S → S → Prop} {post : α → Prop} {post' : β → Prop}

theorem done {a : α} (h : post a) : Isolated kept alike post (.done a) where
  preserves := preserves_done kept a
  agrees s₁ s₂ halike := ⟨rfl, halike⟩
  ends s b hb := by
    cases hb
    exact h

theorem panic (p : Payload) : Isolated kept alike post (.panic p) where
  preserves := preserves_panic kept p
  agrees s₁ s₂ halike := ⟨rfl, halike⟩
  ends s a ha := by cases ha

theorem log (r : LogRecord) {x : Act S α} (h : Isolated kept alike post x) :
    Isolated kept alike post (.log r x) :=
  ⟨h.preserves, h.agrees, h.ends⟩

theorem logs (rs : List LogRecord) {x : Act S α} (h : Isolated kept alike post x) :
    Isolated kept alike post (rs.foldr .log x) := by
  induction rs with
  | nil => exact h
  | cons r rs ih => exact log r ih

theorem step {f : S → α × S} (hkept : ∀ s, kept (f s).2 = kept s)
    (hagrees : ∀ s₁ s₂, alike s₁ s₂ → (f s₁).1 = (f s₂).1 ∧ alike (f s₁).2 (f s₂).2)
    (hpost : ∀ s, post (f s).1) : Isolated kept alike post (Act.step f) where
  preserves := hkept
  agrees s₁ s₂ halike := by
    obtain ⟨hresult, hstates⟩ := hagrees s₁ s₂ halike
    exact ⟨congrArg Except.ok hresult, hstates⟩
  ends s a ha := by
    cases ha
    exact hpost s

theorem read {f : S → α} (hagrees : ∀ s₁ s₂, alike s₁ s₂ → f s₁ = f s₂) (hpost : ∀ s, post (f s)) :
    Isolated kept alike post (Act.step fun s => (f s, s)) :=
  step (fun _ => rfl) (fun s₁ s₂ halike => ⟨hagrees s₁ s₂ halike, halike⟩) hpost

theorem of_forall {x : Act S α} (h : Isolated kept alike (fun _ => True) x) (hpost : ∀ a, post a) :
    Isolated kept alike post x :=
  ⟨h.preserves, h.agrees, fun _ a _ => hpost a⟩

/-- The two runs go on with one result, or end in one panic. -/
theorem bind {x : Act S α} {f : α → Act S β} (hx : Isolated kept alike post x)
    (hf : ∀ a, post a → Isolated kept alike post' (f a)) : Isolated kept alike post' (x.bind f) where
  preserves s := by
    cases h : (outcome x s).1 with
    | error p =>
        rw [outcome_bind_of_error f h]
        exact hx.preserves s
    | ok a =>
        rw [outcome_bind_of_ok f h]
        exact ((hf a (hx.ends s a h)).preserves _).trans (hx.preserves s)
  agrees s₁ s₂ halike := by
    obtain ⟨hresult, hstates⟩ := hx.agrees s₁ s₂ halike
    cases h : (outcome x s₁).1 with
    | error p =>
        rw [outcome_bind_of_error f h, outcome_bind_of_error f (hresult.symm.trans h)]
        exact ⟨rfl, hstates⟩
    | ok a =>
        rw [outcome_bind_of_ok f h, outcome_bind_of_ok f (hresult.symm.trans h)]
        exact (hf a (hx.ends s₁ a h)).agrees _ _ hstates
  ends s b hb := by
    cases h : (outcome x s).1 with
    | error p =>
        rw [outcome_bind_of_error f h] at hb
        cases hb
    | ok a =>
        rw [outcome_bind_of_ok f h] at hb
        exact (hf a (hx.ends s a h)).ends _ b hb

/-- A panic is caught as one, so nothing is known of it. -/
theorem attempt {x : Act S α} (h : Isolated kept alike post x) :
    Isolated kept alike (fun a => ∀ r, a = .ok r → post r) x.attempt where
  preserves s := by
    rw [outcome_attempt]
    exact h.preserves s
  agrees s₁ s₂ halike := by
    obtain ⟨hresult, hstates⟩ := h.agrees s₁ s₂ halike
    rw [outcome_attempt, outcome_attempt]
    exact ⟨congrArg Except.ok hresult, hstates⟩
  ends s a ha r hr := by
    rw [outcome_attempt] at ha
    cases ha
    exact h.ends s r hr

theorem interpret {Q : Type} {R : Q → Type} {C : Prog.Contract Q R} {answer : (q : Q) → Act S (R q)}
    {x : Prog Q R α} (h : Prog.Meets C post x)
    (hanswer : ∀ q, C.asks q → Isolated kept alike (C.grants q) (answer q)) :
    Isolated kept alike post (x.interpret answer) := by
  induction h with
  | done h => exact done h
  | panic p => exact panic p
  | log r h ih => exact log r ih
  | ask hq hpanic h ihpanic ih =>
      refine bind (attempt (hanswer _ hq)) fun a ha => ?_
      cases a with
      | error p => exact ihpanic p
      | ok r => exact ih r (ha r rfl)

end Isolated

end Act

open Act

variable {S γ : Type} {kept : S → γ} {alike : S → S → Prop} {request : Request}

theorem Handler.recovering_isolated {s : Service S} (h : Isolated kept alike (fun _ => True) (s request)) :
    Isolated kept alike (fun _ => True) (recovering s request) := by
  refine h.attempt.bind fun answer _ => ?_
  cases answer with
  | ok response => exact .done trivial
  | error p => exact .log _ (.logs _ (.done trivial))

/-- A router serves a request as the service of the route does that it finds. -/
theorem Router.services_isolated {t : Routes S} {depth : Nat} {root : NodeId}
    {r : Trie.Route (Handler S) (Middleware S)} {s : Service S}
    (hroute : t.dispatch root request.method request.routing request.attributes.pathParams = some r)
    (hwrap : wrap (r.handler.serve (services t depth)) r.middlewares = .ok s)
    (h : Isolated kept alike (fun _ => True) (s (Route.request r request))) :
    Isolated kept alike (fun _ => True) (services t (depth + 1) root request) := by
  refine Handler.recovering_isolated ?_
  unfold route
  simp only [hroute, hwrap]
  exact h

end WebResource
