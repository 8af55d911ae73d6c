import WebResource.Proofs.Context.Waiting
import WebResource.Proofs.Outcome
import WebResource.Transport.Basic

namespace WebResource

/-!
# Transports under observation

An observer writes down what passes through a transport: each request, when it was sent, and when and
how the round trip ended. Apart from that, the transport does what it does by itself.
-/

/-- One round trip. -/
structure Attempt (S : Type) where
  request : HttpRequest
  started : Timed Unit
  ended : Timed Unit
  outcome : Except Payload (Delivery S)

/-- A state with the attempts that have been written down. -/
structure Observed (S : Type) where
  attempts : List (Attempt S)
  inner : S

variable {S : Type}

namespace Observed

def record (a : Attempt S) (o : Observed S) : Observed S := { o with attempts := o.attempts ++ [a] }

end Observed

namespace Timed

def observed (as : List (Attempt S)) (w : Timed S) : Timed (Observed S) := w.carrying ⟨as, w.inner⟩

def unobserved (w : Timed (Observed S)) : Timed S := w.carrying w.inner.inner

def reobserved (v : Timed S) (w : Timed (Observed S)) : Timed (Observed S) := v.observed w.inner.attempts

end Timed

theorem Timed.sleepOrCancel_observed (w : Timed S) (as : List (Attempt S)) (clock : Clock)
    (c : Context) (d : Duration) : (w.observed as).sleepOrCancel clock c d =
      ((w.sleepOrCancel clock c d).1, (w.sleepOrCancel clock c d).2.observed as) := by
  rw [observed, sleepOrCancel_carrying, observed, inner_sleepOrCancel]

namespace Delivery

/-- A delivery whose body is released behind the observer. -/
def observed : Delivery S → Delivery (Observed S)
  | .error e => .error e
  | .ok r =>
    let release (o : Observed S) : Observed S := { o with inner := r.body.release o.inner }
    .ok { r with body := ⟨r.body.chunks, release, r.body.watch⟩ }

/-- The state once a delivery has been given up. -/
def discarded (d : Delivery S) (w : Timed S) : Timed S := (Act.outcome d.discard w).2

theorem outcome_discard (d : Delivery S) (w : Timed S) :
    Act.outcome d.discard w = (.ok (), d.discarded w) := by
  cases d <;> rfl

theorem moment_discarded (d : Delivery S) (w : Timed S) : (d.discarded w).moment = w.moment := by
  cases d <;> rfl

theorem discarded_observed (d : Delivery S) (as : List (Attempt S)) (w : Timed S) :
    d.observed.discarded (w.observed as) = (d.discarded w).observed as := by
  cases d <;> rfl

end Delivery

namespace RoundTripper

def observed (send : RoundTripper S) : RoundTripper (Observed S) := fun c request => do
  let started ← Act.get
  let outcome ← ((send c request).zoom Timed.unobserved Timed.reobserved).attempt
  let ended ← Act.get
  Timed.modifyInner (Observed.record ⟨request, started.moment, ended.moment, outcome⟩)
  Prog.ofExcept (outcome.map Delivery.observed)

end RoundTripper

namespace Act

theorem outcome_ofExcept {α : Type} (o : Except Payload α) (s : S) :
    outcome (Prog.ofExcept o) s = (o, s) := by
  cases o <;> rfl

theorem outcome_observed (send : RoundTripper S) (c : Context) (request : HttpRequest)
    (as : List (Attempt S)) (w : Timed S) :
    outcome (send.observed c request) (w.observed as) =
      ((outcome (send c request) w).1.map Delivery.observed,
        (outcome (send c request) w).2.observed
          (as ++ [⟨request, w.moment, (outcome (send c request) w).2.moment,
            (outcome (send c request) w).1⟩])) := by
  have hzoom := outcome_zoom Timed.unobserved Timed.reobserved (fun _ _ => rfl) (fun _ _ _ => rfl)
    (fun _ => rfl) (send c request) (w.observed as)
  simp only [RoundTripper.observed, bind, outcome_bind, outcome_get, continueWith_ok,
    outcome_attempt, hzoom, Timed.modifyInner, outcome_modify, outcome_ofExcept]
  rfl

end Act

end WebResource
