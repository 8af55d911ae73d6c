import Mathlib.Data.List.Induction
import WebResource.Proofs.Prog

namespace WebResource.Prog

/-!
# What programs ask for, in order

What a program asks, with the answers it gets, up to any moment: it may go on after that, or be left
where it is. A program is guarded if each of its questions is allowed by what has been asked and
answered before. Then so is each question of its traces.
-/

variable {Q : Type} {R : Q → Type} {α β : Type}

/-- How a program may end, over all answers to its questions. -/
inductive Ends : Prog Q R α → Except Payload α → Prop where
  | done (a : α) : Ends (.done a) (.ok a)
  | panic (p : Payload) : Ends (.panic p) (.error p)
  | log {next : Prog Q R α} {result : Except Payload α} (r : LogRecord) (h : Ends next result) :
      Ends (.log r next) result
  | ask {q : Q} {next : Except Payload (R q) → Prog Q R α} {result : Except Payload α}
      (a : Except Payload (R q)) (h : Ends (next a) result) : Ends (.ask q next) result

namespace Ends

theorem of_logs {rs : List LogRecord} {x : Prog Q R α} {result : Except Payload α}
    (h : (rs.foldr .log x).Ends result) : x.Ends result := by
  induction rs with
  | nil => exact h
  | cons r rs ih =>
      cases h with
      | log _ h => exact ih h

/-- What follows a program whose panic is caught decides on the end. -/
theorem of_attempt_bind {x : Prog Q R α} {f : Except Payload α → Prog Q R β}
    {result : Except Payload β} (h : (x.attempt.bind f).Ends result) : ∃ a, (f a).Ends result := by
  induction x with
  | done a => exact ⟨.ok a, h⟩
  | panic p => exact ⟨.error p, h⟩
  | log r x ih =>
      cases h with
      | log _ h => exact ih h
  | ask q k ih =>
      cases h with
      | ask a h => exact ih a h

end Ends

/-- A question and its answer. -/
structure Exchange (Q : Type) (R : Q → Type) where
  question : Q
  answer : Except Payload (R question)

variable {possible : (q : Q) → Except Payload (R q) → Prop} {x : Prog Q R α}
  {past before after calls : List (Exchange Q R)} {e : Exchange Q R}

/-- What a program has asked at some moment, if its questions are answered as is possible. -/
inductive Trace (possible : (q : Q) → Except Payload (R q) → Prop) :
    Prog Q R α → List (Exchange Q R) → Prop where
  | start (x : Prog Q R α) : Trace possible x []
  | log {next : Prog Q R α} {calls : List (Exchange Q R)} (r : LogRecord)
      (h : Trace possible next calls) : Trace possible (.log r next) calls
  | ask {q : Q} {next : Except Payload (R q) → Prog Q R α} {calls : List (Exchange Q R)}
      {a : Except Payload (R q)} (ha : possible q a) (h : Trace possible (next a) calls) :
      Trace possible (.ask q next) (⟨q, a⟩ :: calls)

/-- Each question is allowed after what has been asked before it, and so is the end. -/
inductive Guarded (possible : (q : Q) → Except Payload (R q) → Prop)
    (allowed : List (Exchange Q R) → Q → Prop) (post : List (Exchange Q R) → α → Prop) :
    List (Exchange Q R) → Prog Q R α → Prop where
  | done {past : List (Exchange Q R)} {a : α} (h : post past a) :
      Guarded possible allowed post past (.done a)
  | panic {past : List (Exchange Q R)} (p : Payload) : Guarded possible allowed post past (.panic p)
  | log {past : List (Exchange Q R)} {next : Prog Q R α} (r : LogRecord)
      (h : Guarded possible allowed post past next) : Guarded possible allowed post past (.log r next)
  | ask {past : List (Exchange Q R)} {q : Q} {next : Except Payload (R q) → Prog Q R α}
      (hq : allowed past q)
      (h : ∀ a, possible q a → Guarded possible allowed post (past ++ [⟨q, a⟩]) (next a)) :
      Guarded possible allowed post past (.ask q next)

variable {allowed : List (Exchange Q R) → Q → Prop} {post : List (Exchange Q R) → α → Prop}
  {post' : List (Exchange Q R) → β → Prop}

namespace Guarded

theorem mono {weaker : List (Exchange Q R) → α → Prop} (hx : Guarded possible allowed post past x)
    (hpost : ∀ past a, post past a → weaker past a) : Guarded possible allowed weaker past x := by
  induction hx with
  | done h => exact .done (hpost _ _ h)
  | panic p => exact .panic p
  | log r h ih => exact .log r ih
  | ask hq h ih => exact .ask hq ih

theorem bind {f : α → Prog Q R β} (hx : Guarded possible allowed post past x)
    (hf : ∀ past a, post past a → Guarded possible allowed post' past (f a)) :
    Guarded possible allowed post' past (x.bind f) := by
  induction hx with
  | done h => exact hf _ _ h
  | panic p => exact .panic p
  | log r h ih => exact .log r ih
  | ask hq h ih => exact .ask hq ih

/-- An answer that is a panic ends the program. -/
theorem call {q : Q} (hq : allowed past q) :
    Guarded possible allowed
      (fun past' a => past' = past ++ [⟨q, .ok a⟩] ∧ possible q (.ok a)) past (Prog.call q) := by
  apply Guarded.ask hq
  intro a ha
  cases a with
  | error p => exact .panic p
  | ok a => exact .done ⟨rfl, ha⟩

/-- A program that asks nothing ends where it starts. -/
theorem of_asks_nothing (h : Asks (fun _ => False) x) :
    Guarded possible allowed (fun past' _ => past' = past) past x := by
  induction h with
  | done a => exact .done rfl
  | panic p => exact .panic p
  | log r h ih => exact .log r ih
  | ask hq h ih => exact hq.elim

/-- What has been asked at any moment has been allowed. -/
theorem allowed_of_trace (h : Guarded possible allowed post past x) (ht : Trace possible x calls)
    (hcalls : calls = before ++ e :: after) : allowed (past ++ before) e.question := by
  induction ht generalizing past before with
  | start x => exact absurd hcalls.symm (List.append_ne_nil_of_right_ne_nil _ (List.cons_ne_nil _ _))
  | log r ht ih =>
      cases h with
      | log _ h => exact ih h hcalls
  | ask ha ht ih =>
      cases h with
      | ask hq h =>
          cases before with
          | nil =>
              obtain ⟨rfl, -⟩ := List.cons.inj hcalls
              rw [List.append_nil]
              exact hq
          | cons e' before =>
              obtain ⟨rfl, hcalls'⟩ := List.cons.inj hcalls
              have hlater := ih (h _ ha) hcalls'
              rwa [List.append_assoc, List.singleton_append] at hlater

end Guarded

/-- A program asks nothing but what it is known to ask for. -/
theorem Trace.forall_of_asks {P : Q → Prop} (h : Trace possible x calls) (hx : Asks P x) :
    ∀ e ∈ calls, P e.question := by
  induction h with
  | start x => exact nofun
  | log r h ih =>
      cases hx with
      | log _ hx => exact ih hx
  | ask ha h ih =>
      obtain ⟨hq, hnext⟩ := hx.of_ask
      exact List.forall_mem_cons.mpr ⟨hq, ih (hnext _)⟩

end WebResource.Prog
