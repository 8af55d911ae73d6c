import WebResource.Log
import WebResource.Problem

namespace WebResource

/-!
# Programs

What a handler does, as a tree: it writes log records, asks questions and goes on with the answers,
and ends with a result or a panic. An answer may itself be a panic, which the program can catch.
Nothing happens between two questions, so whoever answers them decides what is atomic.
-/

/-- What a panic carries. -/
inductive Payload where
  | text (message : String)
  | error (e : ApiError)
  | other
  deriving DecidableEq, Repr

namespace Payload

/-- The error to report for a panic. -/
def toError : Payload → ApiError
  | .error e => e
  | .text m => ⟨.internalServerError, m⟩
  | .other => ⟨.internalServerError, "Unknown panic"⟩

end Payload

inductive Prog (Q : Type) (R : Q → Type) (α : Type) where
  | done (a : α)
  | panic (p : Payload)
  | log (r : LogRecord) (next : Prog Q R α)
  | ask (q : Q) (next : Except Payload (R q) → Prog Q R α)

namespace Prog

variable {Q : Type} {R : Q → Type} {α β : Type}

def bind : Prog Q R α → (α → Prog Q R β) → Prog Q R β
  | .done a, f => f a
  | .panic p, _ => .panic p
  | .log r x, f => .log r (bind x f)
  | .ask q k, f => .ask q fun a => bind (k a) f

instance : Monad (Prog Q R) where
  pure := .done
  bind := bind

def tell (r : LogRecord) : Prog Q R Unit := .log r (.done ())

/-- Asks, and panics if the answer is a panic. -/
def call (q : Q) : Prog Q R (R q) :=
  .ask q fun
    | .ok a => .done a
    | .error p => .panic p

/-- The result or the panic, as a result. -/
def attempt : Prog Q R α → Prog Q R (Except Payload α)
  | .done a => .done (.ok a)
  | .panic p => .done (.error p)
  | .log r x => .log r (attempt x)
  | .ask q k => .ask q fun a => attempt (k a)

def ofExcept : Except Payload α → Prog Q R α
  | .ok a => .done a
  | .error p => .panic p

/-- Answers each question of a program by a program with questions of its own. -/
def interpret {Q' : Type} {R' : Q' → Type} (answer : (q : Q) → Prog Q' R' (R q)) :
    Prog Q R α → Prog Q' R' α
  | .done a => .done a
  | .panic p => .panic p
  | .log r x => .log r (interpret answer x)
  | .ask q k => bind (attempt (answer q)) fun a => interpret answer (k a)

@[simp] theorem bind_done (a : α) (f : α → Prog Q R β) : bind (.done a) f = f a := rfl

theorem bind_pure (x : Prog Q R α) : bind x .done = x := by
  induction x with
  | done a => rfl
  | panic p => rfl
  | log r x ih => simp [bind, ih]
  | ask q k ih => simp [bind, ih]

theorem bind_assoc {γ : Type} (x : Prog Q R α) (f : α → Prog Q R β) (g : β → Prog Q R γ) :
    bind (bind x f) g = bind x fun a => bind (f a) g := by
  induction x with
  | done a => rfl
  | panic p => rfl
  | log r x ih => simp [bind, ih]
  | ask q k ih => simp [bind, ih]

end Prog

/-- A program over a state: a question is a change of the state, and its answer is the state
before. -/
abbrev Act (S : Type) (α : Type) := Prog (S → S) (fun _ => S) α

namespace Act

variable {S α : Type}

def get : Act S S := Prog.call id

def modify (f : S → S) : Act S Unit := do
  let _ ← Prog.call (R := fun _ => S) f

/-- One atomic step that changes the state and gives a result. -/
def step {β : Type} (f : S → β × S) : Act S β := do
  let s ← Prog.call (R := fun _ => S) fun s => (f s).2
  return (f s).1

/-- What a run gives: a result or a panic, the log and the state at the end. -/
structure Run (S α : Type) where
  result : Except Payload α
  logs : List LogRecord
  state : S

def run : Act S α → S → Run S α
  | .done a, s => ⟨.ok a, [], s⟩
  | .panic p, s => ⟨.error p, [], s⟩
  | .log r x, s => let o := run x s; { o with logs := r :: o.logs }
  | .ask f k, s => run (k (.ok s)) (f s)

def zoom {T : Type} (view : T → S) (put : S → T → T) : Act S α → Act T α
  | .done a => .done a
  | .panic p => .panic p
  | .log r x => .log r (zoom view put x)
  | .ask f k => .ask (fun t => put (f (view t)) t) fun
    | .ok t => zoom view put (k (.ok (view t)))
    | .error p => zoom view put (k (.error p))

end Act

end WebResource
