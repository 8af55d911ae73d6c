import WebResource.Proofs.Transport.Observing
import WebResource.Transport.Retry

namespace WebResource.Retrying

/-!
# Attempts of a request

What the attempts of a request have in common: each is made while the context is not done, behind
the wait for it, and for the reason that the one before has failed transiently with budget left.
-/

open Act (outcome)

variable {S : Type} {r : Retrying} {send : RoundTripper S} {c : Context} {request : HttpRequest}
  {budget failures n : Nat} {w : Timed S}

/-! ## One attempt -/

/-- A delivery after which a request is to be sent again. -/
def isTransientDelivery (r : Retrying) : Delivery S → Bool
  | .ok response => r.isTransient response.status
  | .error e => e.isTransient

/-- The outcome of an attempt that asks for the `n`-th retry, where the budget allows it. -/
def Retries (r : Retrying) (n : Nat) : Except Payload (Delivery S) → Prop
  | .ok d => r.isTransientDelivery d = true ∧ r.strategy.allows n = true
  | .error _ => False

instance (r : Retrying) (n : Nat) (o : Except Payload (Delivery S)) : Decidable (r.Retries n o) :=
  match o with
  | .ok _ => inferInstanceAs (Decidable (_ ∧ _))
  | .error _ => .isFalse id

theorem cause_of_transient {d : Delivery S} (h : r.isTransientDelivery d = true) :
    ∃ cause, r.cause d = some cause := by
  cases d with
  | ok response => exact ⟨_, if_pos h⟩
  | error e => exact ⟨_, if_pos h⟩

theorem cause_of_not_transient {d : Delivery S} (h : r.isTransientDelivery d = false) :
    r.cause d = none := by
  cases d with
  | ok response => exact if_neg (Bool.eq_false_iff.mp h)
  | error e => exact if_neg (Bool.eq_false_iff.mp h)

theorem outcome_waitForRetry (s : RetryStrategy) (c : Context) (n : Nat) (w : Timed S) :
    outcome (s.waitForRetry c n) w =
      if s.allows n then
        match w.sleepOrCancel s.clock c (s.wait n) with
        | (.ok (), v) => (.ok (.ok true), v)
        | (.error e, v) => (.ok (.error e), v)
      else (.ok (.ok false), w) := by
  rw [RetryStrategy.waitForRetry]
  split
  · simp only [bind, Act.outcome_bind, Act.outcome_step, Act.continueWith_ok]
    generalize w.sleepOrCancel s.clock c (s.wait n) = x
    obtain ⟨result, v⟩ := x
    cases result <;> rfl
  · rfl

theorem outcome_attempt_of_err {e : ContextError} (h : c.err w.time = some e) :
    outcome (r.attempt send c request budget failures) w = (.ok (.error (.context e)), w) := by
  rw [attempt.eq_def]
  simp only [bind, Act.outcome_bind, Act.outcome_get, Act.continueWith_ok, h]
  rfl

section Live

variable {o : Except Payload (Delivery S)} {d : Delivery S} {v v' : Timed S}

/-- An attempt is the last one if its outcome asks for no retry, or there is no budget for it. -/
theorem outcome_attempt_of_last (hlive : c.err w.time = none)
    (hsend : outcome (send c request.replay) w = (o, v)) (hlast : ¬r.Retries (failures + 1) o) :
    outcome (r.attempt send c request budget failures) w = (o, v) := by
  rw [attempt.eq_def]
  simp only [bind, Act.outcome_bind, Act.outcome_get, Act.continueWith_ok, hlive, hsend]
  cases o with
  | error p => rfl
  | ok d =>
      cases htransient : r.isTransientDelivery d with
      | false =>
          simp only [Act.continueWith_ok, cause_of_not_transient htransient]
          rfl
      | true =>
          obtain ⟨cause, hcause⟩ := cause_of_transient htransient
          have hbudget : ¬r.strategy.allows (failures + 1) = true := fun h => hlast ⟨htransient, h⟩
          simp only [Act.continueWith_ok, hcause, Act.outcome_bind, outcome_waitForRetry,
            if_neg hbudget]
          cases budget <;> rfl

theorem outcome_attempt_of_interrupted {e : ContextError} (hlive : c.err w.time = none)
    (hsend : outcome (send c request.replay) w = (.ok d, v))
    (hretries : r.Retries (failures + 1) (.ok d))
    (hwait : v.sleepOrCancel r.strategy.clock c (r.strategy.wait (failures + 1)) = (.error e, v')) :
    outcome (r.attempt send c request budget failures) w =
      (.ok (.error (.context e)), d.discarded v') := by
  obtain ⟨cause, hcause⟩ := cause_of_transient hretries.1
  rw [attempt.eq_def]
  simp only [bind, Act.outcome_bind, Act.outcome_get, Act.continueWith_ok, hlive, hsend, hcause,
    outcome_waitForRetry, if_pos hretries.2, hwait, Delivery.outcome_discard]
  rfl

theorem outcome_attempt_of_retry (hlive : c.err w.time = none)
    (hsend : outcome (send c request.replay) w = (.ok d, v))
    (hretries : r.Retries (failures + 1) (.ok d))
    (hwait : v.sleepOrCancel r.strategy.clock c (r.strategy.wait (failures + 1)) = (.ok (), v')) :
    outcome (r.attempt send c request (budget + 1) failures) w =
      outcome (r.attempt send c request budget (failures + 1)) (d.discarded v') := by
  obtain ⟨cause, hcause⟩ := cause_of_transient hretries.1
  rw [attempt.eq_def]
  simp only [bind, Act.outcome_bind, Act.outcome_get, Act.continueWith_ok, hlive, hsend, hcause,
    outcome_waitForRetry, if_pos hretries.2, hwait, Delivery.outcome_discard, if_true, Prog.tell,
    Act.outcome_log, Act.outcome_done]

end Live

/-! ## All attempts -/

theorem isTransientDelivery_observed (d : Delivery S) :
    r.isTransientDelivery d.observed = r.isTransientDelivery d := by
  cases d <;> rfl

theorem retries_observed {o : Except Payload (Delivery S)} :
    r.Retries n (o.map Delivery.observed) ↔ r.Retries n o := by
  cases o with
  | error p => rfl
  | ok d => exact iff_of_eq (congrArg (· = true ∧ _) (isTransientDelivery_observed d))

/-- How the attempts go on at a moment, after so many failures: those that are made, what comes of
them, and the moment at which it comes. -/
inductive History (r : Retrying) (c : Context) (request : HttpRequest) :
    (failures : Nat) → (now : Timed Unit) → List (Attempt S) → Except Payload (Delivery S) →
      (finish : Timed Unit) → Prop where
  | done {failures : Nat} {now : Timed Unit} (e : ContextError) (he : c.err now.time = some e) :
      History r c request failures now [] (.ok (.error (.context e))) now
  | last {failures : Nat} {now : Timed Unit} (a : Attempt S) (hlive : c.err now.time = none)
      (hrequest : a.request = request.replay) (hstarted : a.started = now)
      (hlast : ¬r.Retries (failures + 1) a.outcome) :
      History r c request failures now [a] a.outcome a.ended
  | interrupted {failures : Nat} {now finish : Timed Unit} (a : Attempt S) (e : ContextError)
      (hlive : c.err now.time = none) (hrequest : a.request = request.replay)
      (hstarted : a.started = now) (hretries : r.Retries (failures + 1) a.outcome)
      (hwait : a.ended.sleepOrCancel r.strategy.clock c (r.strategy.wait (failures + 1)) =
        (.error e, finish)) :
      History r c request failures now [a] (.ok (.error (.context e))) finish
  | again {failures : Nat} {now next finish : Timed Unit} {as : List (Attempt S)}
      {result : Except Payload (Delivery S)} (a : Attempt S) (hlive : c.err now.time = none)
      (hrequest : a.request = request.replay) (hstarted : a.started = now)
      (hretries : r.Retries (failures + 1) a.outcome)
      (hwait : a.ended.sleepOrCancel r.strategy.clock c (r.strategy.wait (failures + 1)) =
        (.ok (), next))
      (h : History r c request (failures + 1) next as result finish) :
      History r c request failures now (a :: as) result finish

/-- What an observer writes down from a moment on is a history of what comes of the request. -/
def Recorded (r : Retrying) (send : RoundTripper S) (c : Context) (request : HttpRequest)
    (budget failures : Nat) (w : Timed S) : Prop :=
  ∀ as, ∃ new,
    (outcome (r.attempt send.observed c request budget failures) (w.observed as)).2.inner.attempts =
        as ++ new ∧
      History r c request failures w.moment new
        (outcome (r.attempt send c request budget failures) w).1
        (outcome (r.attempt send c request budget failures) w).2.moment

section Recorded

variable {o : Except Payload (Delivery S)} {d : Delivery S} {e : ContextError} {v v' : Timed S}

theorem outcome_send_observed (hsend : outcome (send c request.replay) w = (o, v))
    (as : List (Attempt S)) :
    outcome (send.observed c request.replay) (w.observed as) = (o.map Delivery.observed,
      v.observed (as ++ [⟨request.replay, w.moment, v.moment, o⟩])) := by
  rw [Act.outcome_observed, hsend]

theorem recorded_of_err (h : c.err w.time = some e) :
    Recorded r send c request budget failures w := by
  intro as
  have hobserved : c.err (w.observed as).time = some e := h
  rw [outcome_attempt_of_err h, outcome_attempt_of_err hobserved]
  exact ⟨[], (List.append_nil as).symm, .done e h⟩

theorem recorded_of_last (hlive : c.err w.time = none)
    (hsend : outcome (send c request.replay) w = (o, v)) (hlast : ¬r.Retries (failures + 1) o) :
    Recorded r send c request budget failures w := by
  intro as
  have hlive' : c.err (w.observed as).time = none := hlive
  rw [outcome_attempt_of_last hlive hsend hlast, outcome_attempt_of_last hlive'
    (outcome_send_observed hsend as) (mt retries_observed.mp hlast)]
  exact ⟨_, rfl, .last ⟨_, _, _, o⟩ hlive rfl rfl hlast⟩

theorem recorded_of_interrupted (hlive : c.err w.time = none)
    (hsend : outcome (send c request.replay) w = (.ok d, v))
    (hretries : r.Retries (failures + 1) (.ok d))
    (hwait : v.sleepOrCancel r.strategy.clock c (r.strategy.wait (failures + 1)) = (.error e, v')) :
    Recorded r send c request budget failures w := by
  intro as
  have hlive' : c.err (w.observed as).time = none := hlive
  have hobserved := v.sleepOrCancel_observed (as ++ [⟨request.replay, w.moment, v.moment, .ok d⟩])
    r.strategy.clock c (r.strategy.wait (failures + 1))
  rw [hwait] at hobserved
  rw [outcome_attempt_of_interrupted hlive hsend hretries hwait, outcome_attempt_of_interrupted hlive'
    (outcome_send_observed hsend as) (retries_observed.mpr hretries) hobserved,
    Delivery.discarded_observed, Delivery.moment_discarded]
  refine ⟨_, rfl, .interrupted ⟨_, _, _, .ok d⟩ e hlive rfl rfl hretries ?_⟩
  exact (v.sleepOrCancel_carrying () _ c _).trans (by rw [hwait]; rfl)

theorem recorded_of_retry (hlive : c.err w.time = none)
    (hsend : outcome (send c request.replay) w = (.ok d, v))
    (hretries : r.Retries (failures + 1) (.ok d))
    (hwait : v.sleepOrCancel r.strategy.clock c (r.strategy.wait (failures + 1)) = (.ok (), v'))
    (hnext : Recorded r send c request budget (failures + 1) (d.discarded v')) :
    Recorded r send c request (budget + 1) failures w := by
  intro as
  have hlive' : c.err (w.observed as).time = none := hlive
  have hobserved := v.sleepOrCancel_observed (as ++ [⟨request.replay, w.moment, v.moment, .ok d⟩])
    r.strategy.clock c (r.strategy.wait (failures + 1))
  rw [hwait] at hobserved
  obtain ⟨new, hattempts, hhistory⟩ := hnext (as ++ [⟨request.replay, w.moment, v.moment, .ok d⟩])
  rw [outcome_attempt_of_retry hlive hsend hretries hwait, outcome_attempt_of_retry hlive'
    (outcome_send_observed hsend as) (retries_observed.mpr hretries) hobserved,
    Delivery.discarded_observed]
  refine ⟨_ :: new, by rw [hattempts, List.append_assoc]; rfl, ?_⟩
  refine .again ⟨_, _, _, .ok d⟩ hlive rfl rfl hretries ?_ hhistory
  rw [Delivery.moment_discarded]
  exact (v.sleepOrCancel_carrying () _ c _).trans (by rw [hwait]; rfl)

end Recorded

theorem allows_of_retries {o : Except Payload (Delivery S)} (h : r.Retries n o) :
    r.strategy.allows n = true := by
  cases o with
  | error p => exact h.elim
  | ok d => exact h.2

theorem le_of_retries {o : Except Payload (Delivery S)} (h : r.Retries n o) :
    n ≤ r.strategy.options.maxRetries := by
  have hallows := allows_of_retries h
  rw [RetryStrategy.allows, Bool.and_eq_true, decide_eq_true_eq] at hallows
  exact hallows.1

theorem recorded_attempt (r : Retrying) (send : RoundTripper S) (c : Context) (request : HttpRequest)
    (hbudget : budget + failures = r.strategy.options.maxRetries) (w : Timed S) :
    Recorded r send c request budget failures w := by
  -- By induction on the budget, which outlasts the retries that are allowed.
  induction budget generalizing failures w with
  | zero =>
      cases hlive : c.err w.time with
      | some e => exact recorded_of_err hlive
      | none =>
          refine recorded_of_last hlive rfl fun hretries => ?_
          have hle := le_of_retries hretries
          omega
  | succ budget ih =>
      cases hlive : c.err w.time with
      | some e => exact recorded_of_err hlive
      | none =>
          by_cases hretries : r.Retries (failures + 1) (outcome (send c request.replay) w).1
          · cases hsend : outcome (send c request.replay) w with
            | mk o v =>
                rw [hsend] at hretries
                cases o with
                | error p => exact hretries.elim
                | ok d =>
                    rcases v.sleepOrCancel_cases r.strategy.clock c (r.strategy.wait (failures + 1)) with
                      hwait | ⟨m, e, hwait⟩
                    · exact recorded_of_retry hlive hsend hretries hwait (ih (by omega) _)
                    · exact recorded_of_interrupted hlive hsend hretries hwait
          · exact recorded_of_last hlive rfl hretries

/-- The attempts that are made of a request, as an observer of the transport writes them down. -/
def attempts (r : Retrying) (send : RoundTripper S) (c : Context) (request : HttpRequest)
    (w : Timed S) : List (Attempt S) :=
  (outcome (r.roundTrip send.observed c request) (w.observed [])).2.inner.attempts

theorem history_roundTrip (r : Retrying) (send : RoundTripper S) (c : Context)
    (request : HttpRequest) (w : Timed S) :
    History r c request 0 w.moment (r.attempts send c request w)
      (outcome (r.roundTrip send c request) w).1
      (outcome (r.roundTrip send c request) w).2.moment := by
  obtain ⟨new, hnew, hhistory⟩ := recorded_attempt r send c request (Nat.add_zero _) w []
  rw [attempts, roundTrip, hnew]
  exact hhistory

/-! ## What a history tells -/

section History

variable {i : Nat} {now finish : Timed Unit} {as : List (Attempt S)} {a : Attempt S}
  {result : Except Payload (Delivery S)} {e : ContextError}

/-- What follows an attempt whose outcome may ask for the `n`-th retry: nothing more, since it asks for
none, or the wait is interrupted, or the context is done behind the wait; or else the next attempt. -/
inductive Aftermath (r : Retrying) (c : Context) (n : Nat) (a : Attempt S) (isLast : Prop)
    (next : Option (Attempt S)) (result : Except Payload (Delivery S)) (finish : Timed Unit) : Prop where
  | ended (hlast : isLast) (hretries : ¬r.Retries n a.outcome) (hresult : result = a.outcome)
      (hfinish : finish = a.ended)
  | interrupted (e : ContextError) (hlast : isLast) (hretries : r.Retries n a.outcome)
      (hwait : a.ended.sleepOrCancel r.strategy.clock c (r.strategy.wait n) = (.error e, finish))
      (hresult : result = .ok (.error (.context e)))
  | late (e : ContextError) (hlast : isLast) (hretries : r.Retries n a.outcome)
      (hwait : a.ended.sleepOrCancel r.strategy.clock c (r.strategy.wait n) = (.ok (), finish))
      (hdone : c.err finish.time = some e) (hresult : result = .ok (.error (.context e)))
  | again (b : Attempt S) (hnext : next = some b) (hretries : r.Retries n a.outcome)
      (hwait : a.ended.sleepOrCancel r.strategy.clock c (r.strategy.wait n) = (.ok (), b.started))

namespace History

theorem of_err (h : History r c request failures now as result finish)
    (he : c.err now.time = some e) : as = [] ∧ result = .ok (.error (.context e)) ∧ finish = now := by
  cases h with
  | done e' he' =>
      obtain rfl := Option.some.inj (he'.symm.trans he)
      exact ⟨rfl, rfl, rfl⟩
  | last a hlive => cases hlive.symm.trans he
  | interrupted a e' hlive => cases hlive.symm.trans he
  | again a hlive => cases hlive.symm.trans he

/-- Unless the context is done, there is an attempt at once. -/
theorem of_live (h : History r c request failures now as result finish)
    (hlive : c.err now.time = none) : ∃ a, as[0]? = some a ∧ a.started = now := by
  cases h with
  | done e he => cases hlive.symm.trans he
  | last a _ _ hstarted => exact ⟨a, rfl, hstarted⟩
  | interrupted a e _ _ hstarted => exact ⟨a, rfl, hstarted⟩
  | again a _ _ hstarted => exact ⟨a, rfl, hstarted⟩

/-- What all attempts have in common. -/
theorem forall_attempts (h : History r c request failures now as result finish) :
    ∀ a ∈ as, a.request = request.replay ∧ c.err a.started.time = none := by
  induction h with
  | done e he =>
      intro a ha
      exact absurd ha List.not_mem_nil
  | last a hlive hrequest hstarted hlast =>
      rw [List.forall_mem_singleton, hstarted]
      exact ⟨hrequest, hlive⟩
  | interrupted a e hlive hrequest hstarted hretries hwait =>
      rw [List.forall_mem_singleton, hstarted]
      exact ⟨hrequest, hlive⟩
  | again a hlive hrequest hstarted hretries hwait h ih =>
      rw [List.forall_mem_cons, hstarted]
      exact ⟨⟨hrequest, hlive⟩, ih⟩

/-- What follows an attempt that is at once. -/
theorem aftermath_first {as : List (Attempt S)}
    (h : History r c request failures now (a :: as) result finish) :
    Aftermath r c (failures + 1) a (1 = (a :: as).length) as[0]? result finish := by
  cases h with
  | last a hlive hrequest hstarted hlast => exact .ended rfl hlast rfl rfl
  | interrupted a e hlive hrequest hstarted hretries hwait =>
      exact .interrupted e rfl hretries hwait rfl
  | @again _ _ next _ _ _ a hlive hrequest hstarted hretries hwait h =>
      cases hnext : c.err next.time with
      | some e =>
          obtain ⟨rfl, hresult, rfl⟩ := h.of_err hnext
          exact .late e rfl hretries hwait hnext hresult
      | none =>
          obtain ⟨b, hb, hstarted'⟩ := h.of_live hnext
          exact .again b hb hretries (hstarted' ▸ hwait)

theorem aftermath (h : History r c request failures now as result finish) (ha : as[i]? = some a) :
    Aftermath r c (failures + i + 1) a (i + 1 = as.length) as[i + 1]? result finish := by
  induction i generalizing failures now as with
  | zero =>
      cases as with
      | nil => cases ha
      | cons a' as =>
          obtain rfl := Option.some.inj ha
          exact h.aftermath_first
  | succ i ih =>
      cases h with
      | done e he => cases ha
      | last a' => cases ha
      | interrupted a' => cases ha
      | @again _ _ _ _ as _ a' hlive hrequest hstarted hretries hwait h =>
          have hrest := ih h ha
          have hindex : failures + (i + 1) + 1 = failures + 1 + i + 1 := by omega
          have hlength : (i + 1 + 1 = (a' :: as).length) = (i + 1 = as.length) := by simp
          rw [hindex, hlength]
          exact hrest

end History

end History

/-! ## A slow server -/

/-- A transport that times out a number of times before it answers. -/
def slow (failures : Nat) : RoundTripper Nat := fun _ _ =>
  Act.step fun w =>
    (if w.inner < failures then .error (.timedOut "slow") else .ok ⟨200, [], .ofChunks []⟩,
      { w with inner := w.inner + 1 })

/-- Up to five retries, each 10 ms later. -/
def steady : Retrying := ⟨⟨⟨.fixed, .ofMillis 10, 5, some (.ofMillis 100)⟩, .system, fun _ => .zero⟩, []⟩

/-- A request for the root. -/
def rootRequest : HttpRequest := .ofTransport ⟨"GET", ⟨none, none, "/", none⟩, [], []⟩

end WebResource.Retrying
