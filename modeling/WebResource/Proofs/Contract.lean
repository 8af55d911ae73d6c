import WebResource.Proofs.Prog

namespace WebResource.Prog

/-!
# Programs that keep to a contract

A contract says what may be asked and what the answers grant. A program meets it if it asks only what
may be asked and ends only with what is wanted, as long as the answers grant what they should. A program
answered by programs that meet a contract meets it too.
-/

/-- What may be asked of the other side, and what it grants with its answers. -/
structure Contract (Q : Type) (R : Q → Type) where
  asks : Q → Prop
  grants : (q : Q) → R q → Prop

variable {Q : Type} {R : Q → Type} {α β : Type}

/-- A contract in which nothing is granted. -/
def Contract.plain (P : Q → Prop) : Contract Q R := ⟨P, fun _ _ => True⟩

variable {C : Contract Q R} {P : Q → Prop} {post : α → Prop} {post' : β → Prop}

/-- An answer may be a panic, of which nothing is granted. -/
inductive Meets (C : Contract Q R) (post : α → Prop) : Prog Q R α → Prop where
  | done {a : α} (h : post a) : Meets C post (.done a)
  | panic (p : Payload) : Meets C post (.panic p)
  | log {next : Prog Q R α} (r : LogRecord) (h : Meets C post next) : Meets C post (.log r next)
  | ask {q : Q} {next : Except Payload (R q) → Prog Q R α} (hq : C.asks q)
      (hpanic : ∀ p, Meets C post (next (.error p)))
      (h : ∀ a, C.grants q a → Meets C post (next (.ok a))) : Meets C post (.ask q next)

namespace Meets

theorem bind {x : Prog Q R α} {f : α → Prog Q R β} (hx : Meets C post x)
    (hf : ∀ a, post a → Meets C post' (f a)) : Meets C post' (x.bind f) := by
  induction hx with
  | done h => exact hf _ h
  | panic p => exact .panic p
  | log r h ih => exact .log r ih
  | ask hq hpanic h ihpanic ih => exact .ask hq ihpanic ih

theorem mono {post' : α → Prop} {x : Prog Q R α} (hx : Meets C post x) (hpost : ∀ a, post a → post' a) :
    Meets C post' x := by
  induction hx with
  | done h => exact .done (hpost _ h)
  | panic p => exact .panic p
  | log r h ih => exact .log r ih
  | ask hq hpanic h ihpanic ih => exact .ask hq ihpanic ih

theorem call {q : Q} (hq : C.asks q) : Meets C (C.grants q) (Prog.call q) :=
  .ask hq (fun p => .panic p) fun _ ha => .done ha

/-- A panic is caught as one, so nothing is known of it. -/
theorem attempt {x : Prog Q R α} (h : Meets C post x) :
    Meets C (fun a => ∀ r, a = .ok r → post r) x.attempt := by
  induction h with
  | done h =>
      refine .done fun r hr => ?_
      cases hr
      exact h
  | panic p =>
      refine .done fun r hr => ?_
      cases hr
  | log r h ih => exact .log r ih
  | ask hq hpanic h ihpanic ih => exact .ask hq ihpanic ih

/-- What is asked under one contract is answered under another one. -/
theorem interpret {Q' : Type} {R' : Q' → Type} {C' : Contract Q' R'}
    {answer : (q : Q) → Prog Q' R' (R q)} {x : Prog Q R α} (h : Meets C post x)
    (hanswer : ∀ q, C.asks q → Meets C' (C.grants q) (answer q)) :
    Meets C' post (x.interpret answer) := by
  induction h with
  | done h => exact .done h
  | panic p => exact .panic p
  | log r h ih => exact .log r ih
  | ask hq hpanic h ihpanic ih =>
      refine bind (attempt (hanswer _ hq)) fun a ha => ?_
      cases a with
      | error p => exact ihpanic p
      | ok r => exact ih r (ha r rfl)

/-! ## Contracts in which nothing is granted -/

theorem of_asks {x : Prog Q R α} (h : Asks C.asks x) : Meets C (fun _ => True) x := by
  induction h with
  | done a => exact .done trivial
  | panic p => exact .panic p
  | log r h ih => exact .log r ih
  | ask hq h ih => exact .ask hq (fun p => ih (.error p)) fun a _ => ih (.ok a)

theorem asks {x : Prog Q R α} (h : Meets (Contract.plain P) post x) : Asks P x := by
  induction h with
  | done h => exact .done _
  | panic p => exact .panic p
  | log r h ih => exact .log r ih
  | ask hq hpanic h ihpanic ih =>
      refine .ask hq fun a => ?_
      cases a with
      | error p => exact ihpanic p
      | ok a => exact ih a trivial

end Meets

theorem Asks.attempt {x : Prog Q R α} (h : Asks P x) : Asks P x.attempt :=
  (Meets.of_asks (C := Contract.plain P) h).attempt.asks

end WebResource.Prog
