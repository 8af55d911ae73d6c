import WebResource.Context.Clock
import WebResource.Proofs.Prog

namespace WebResource

/-!
# Outcomes of runs

What comes of running a program alone, apart from its log: a result or a panic, and the state at the
end. The outcome of a program follows from the outcomes of its parts.
-/

namespace Act

variable {S α β : Type}

/-- The result and the state at the end of a run. -/
def outcome (x : Act S α) (s : S) : Except Payload α × S := ((run x s).result, (run x s).state)

/-- Goes on with a result; a panic stays. -/
def continueWith (o : Except Payload α × S) (f : α → S → Except Payload β × S) :
    Except Payload β × S :=
  match o with
  | (.ok a, s) => f a s
  | (.error p, s) => (.error p, s)

@[simp] theorem continueWith_ok (a : α) (s : S) (f : α → S → Except Payload β × S) :
    continueWith (.ok a, s) f = f a s := rfl

@[simp] theorem continueWith_error (p : Payload) (s : S) (f : α → S → Except Payload β × S) :
    continueWith (.error p, s) f = (.error p, s) := rfl

@[simp] theorem outcome_done (a : α) (s : S) : outcome (.done a) s = (.ok a, s) := rfl

@[simp] theorem outcome_panic (p : Payload) (s : S) :
    outcome (.panic p : Act S α) s = (.error p, s) := rfl

@[simp] theorem outcome_log (r : LogRecord) (x : Act S α) (s : S) :
    outcome (.log r x) s = outcome x s := rfl

@[simp] theorem outcome_ask (f : S → S) (k : Except Payload S → Act S α) (s : S) :
    outcome (.ask f k) s = outcome (k (.ok s)) (f s) := rfl

@[simp] theorem outcome_bind (x : Act S α) (f : α → Act S β) (s : S) :
    outcome (x.bind f) s = continueWith (outcome x s) fun a => outcome (f a) := by
  induction x generalizing s with
  | done a => rfl
  | panic p => rfl
  | log r x ih => exact ih s
  | ask q k ih => exact ih (.ok s) (q s)

@[simp] theorem outcome_attempt (x : Act S α) (s : S) :
    outcome x.attempt s = (.ok (outcome x s).1, (outcome x s).2) := by
  induction x generalizing s with
  | done a => rfl
  | panic p => rfl
  | log r x ih => exact ih s
  | ask q k ih => exact ih (.ok s) (q s)

@[simp] theorem outcome_logs (rs : List LogRecord) (x : Act S α) (s : S) :
    outcome (rs.foldr .log x) s = outcome x s := by
  induction rs with
  | nil => rfl
  | cons r rs ih => exact ih

@[simp] theorem outcome_step (f : S → β × S) (s : S) :
    outcome (step f) s = (.ok (f s).1, (f s).2) := rfl

@[simp] theorem outcome_get (s : S) : outcome get s = (.ok s, s) := rfl

@[simp] theorem outcome_modify (f : S → S) (s : S) : outcome (modify f) s = (.ok (), f s) := rfl

theorem outcome_zoom {T : Type} (view : T → S) (put : S → T → T) (hview : ∀ s t, view (put s t) = s)
    (hput : ∀ s s' t, put s (put s' t) = put s t) (hself : ∀ t, put (view t) t = t) (x : Act S α)
    (t : T) :
    outcome (x.zoom view put) t = ((outcome x (view t)).1, put (outcome x (view t)).2 t) := by
  induction x generalizing t with
  | done a => simp [zoom, hself]
  | panic p => simp [zoom, hself]
  | log r x ih => exact ih t
  | ask q k ih =>
      have hnext := ih (.ok (view t)) (put (q (view t)) t)
      rw [hview, hput] at hnext
      rw [zoom, outcome_ask, outcome_ask]
      exact hnext

@[simp] theorem outcome_lift (x : Act S α) (w : Timed S) :
    outcome (Timed.lift x) w =
      ((outcome x w.inner).1, { w with inner := (outcome x w.inner).2 }) :=
  outcome_zoom (fun w : Timed S => w.inner) (fun s w => { w with inner := s }) (fun _ _ => rfl)
    (fun _ _ _ => rfl) (fun _ => rfl) x w

/-! ## What stays as it is -/

/-- A program that leaves a part of the state as it is. -/
def Preserves {γ : Type} (view : S → γ) (x : Act S α) : Prop := ∀ s, view (outcome x s).2 = view s

theorem preserves_done {γ : Type} (view : S → γ) (a : α) : Preserves view (.done a) := fun _ => rfl

theorem preserves_panic {γ : Type} (view : S → γ) (p : Payload) :
    Preserves view (.panic p : Act S α) := fun _ => rfl

/-- A program leaves a part of the state as it is if all answers to what it asks for do. -/
theorem Preserves.interpret {γ Q : Type} {R : Q → Type} {P : Q → Prop} {view : S → γ}
    {answer : (q : Q) → Act S (R q)} {x : Prog Q R α} (h : Prog.Asks P x)
    (hP : ∀ q, P q → Preserves view (answer q)) : Preserves view (x.interpret answer) := by
  induction h with
  | done a => exact preserves_done view a
  | panic p => exact preserves_panic view p
  | log r h ih => exact ih
  | ask hq h ih =>
      intro s
      rw [Prog.interpret, outcome_bind, outcome_attempt, continueWith_ok]
      exact (ih _ _).trans (hP _ hq s)

end Act

end WebResource
