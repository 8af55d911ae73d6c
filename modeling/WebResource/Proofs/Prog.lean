import WebResource.Prog

namespace WebResource.Prog

/-!
# What programs ask for

A program asks only for what is allowed if every question it can come to is allowed, whatever the
answers before it have been.
-/

variable {Q : Type} {R : Q → Type} {α β : Type} {P P' : Q → Prop}

instance : LawfulMonad (Prog Q R) :=
  LawfulMonad.mk' _ bind_pure (fun _ _ => rfl) bind_assoc

inductive Asks (P : Q → Prop) : Prog Q R α → Prop where
  | done (a : α) : Asks P (.done a)
  | panic (p : Payload) : Asks P (.panic p)
  | log {next : Prog Q R α} (r : LogRecord) (h : Asks P next) : Asks P (.log r next)
  | ask {q : Q} {next : Except Payload (R q) → Prog Q R α} (hq : P q)
      (h : ∀ a, Asks P (next a)) : Asks P (.ask q next)

namespace Asks

theorem mono (hP : ∀ q, P q → P' q) {x : Prog Q R α} (h : Asks P x) : Asks P' x := by
  induction h with
  | done a => exact .done a
  | panic p => exact .panic p
  | log r h ih => exact .log r ih
  | ask hq h ih => exact .ask (hP _ hq) ih

theorem bind {x : Prog Q R α} {f : α → Prog Q R β} (hx : Asks P x) (hf : ∀ a, Asks P (f a)) :
    Asks P (x.bind f) := by
  induction hx with
  | done a => exact hf a
  | panic p => exact .panic p
  | log r h ih => exact .log r ih
  | ask hq h ih => exact .ask hq ih

theorem call {q : Q} (hq : P q) : Asks P (Prog.call (R := R) q) := by
  refine .ask hq fun a => ?_
  cases a with
  | error p => exact .panic p
  | ok a => exact .done a

theorem logs (rs : List LogRecord) {x : Prog Q R α} (h : Asks P x) : Asks P (rs.foldr .log x) := by
  induction rs with
  | nil => exact h
  | cons r rs ih => exact .log r ih

end Asks

theorem Asks.of_ask {q : Q} {next : Except Payload (R q) → Prog Q R α} (h : Asks P (.ask q next)) :
    P q ∧ ∀ a, Asks P (next a) := by
  cases h with
  | ask hq h => exact ⟨hq, h⟩

/-! ## Answers -/

section Interpret

variable {Q' : Type} {R' : Q' → Type} (answer : (q : Q) → Prog Q' R' (R q))

theorem interpret_bind (x : Prog Q R α) (f : α → Prog Q R β) :
    (x.bind f).interpret answer = (x.interpret answer).bind fun a => (f a).interpret answer := by
  induction x with
  | done a => rfl
  | panic p => rfl
  | log r x ih => exact congrArg (Prog.log r) ih
  | ask q k ih =>
      rw [Prog.bind, Prog.interpret, Prog.interpret, Prog.bind_assoc]
      exact congrArg _ (funext fun a => ih a)

theorem attempt_attempt_bind (x : Prog Q R α) (f : Except Payload α → Prog Q R β) :
    (x.attempt.bind f).attempt = x.attempt.bind fun a => (f a).attempt := by
  induction x with
  | done a => rfl
  | panic p => rfl
  | log r x ih => exact congrArg (Prog.log r) ih
  | ask q k ih => exact congrArg (Prog.ask q) (funext fun a => ih a)

theorem interpret_attempt (x : Prog Q R α) :
    x.attempt.interpret answer = (x.interpret answer).attempt := by
  induction x with
  | done a => rfl
  | panic p => rfl
  | log r x ih => exact congrArg (Prog.log r) ih
  | ask q k ih =>
      rw [attempt, interpret, interpret, attempt_attempt_bind]
      exact congrArg _ (funext fun a => ih a)

theorem interpret_logs (rs : List LogRecord) (x : Prog Q R α) :
    (rs.foldr .log x).interpret answer = rs.foldr .log (x.interpret answer) := by
  induction rs with
  | nil => rfl
  | cons r rs ih => exact congrArg (Prog.log r) ih

end Interpret

end WebResource.Prog
