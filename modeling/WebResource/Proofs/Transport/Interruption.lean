import WebResource.Proofs.Transport.Retries

namespace WebResource.Retrying

/-!
# Retries under a context that becomes done

Whether the context becomes done before an attempt, in it or in the wait behind it, no attempt is
made after that, and the caller hears of it.
-/

open Act (outcome)

variable {S : Type} {r : Retrying} {send : RoundTripper S} {c : Context} {request : HttpRequest}
  {i : Nat} {e : ContextError} {now finish : Timed Unit} {as : List (Attempt S)}
  {a : Attempt S} {result : Except Payload (Delivery S)}

/-- An attempt behind which a wait is interrupted is the last one. -/
theorem History.of_interrupted (h : History r c request 0 now as result finish)
    (ha : as[i]? = some a) (hretries : r.Retries (i + 1) a.outcome)
    (hwait : (a.ended.sleepOrCancel r.strategy.clock c (r.strategy.wait (i + 1))).1 = .error e) :
    i + 1 = as.length ∧ result = .ok (.error (.context e)) := by
  have haftermath := h.aftermath ha
  rw [Nat.zero_add] at haftermath
  cases haftermath with
  | ended hlast hpermanent => exact absurd hretries hpermanent
  | interrupted e' hlast _ hwait' hresult =>
      rw [hwait'] at hwait
      obtain rfl := Except.error.inj hwait
      exact ⟨hlast, hresult⟩
  | late e' hlast _ hwait' =>
      rw [hwait'] at hwait
      cases hwait
  | again b hnext _ hwait' =>
      rw [hwait'] at hwait
      cases hwait

/-- An attempt whose outcome is an error of the context is the last one. -/
theorem History.of_context (h : History r c request 0 now as result finish) (ha : as[i]? = some a)
    (houtcome : a.outcome = .ok (.error (.context e))) :
    i + 1 = as.length ∧ result = .ok (.error (.context e)) := by
  have hpermanent {n : Nat} : ¬r.Retries n a.outcome := by
    rw [houtcome]
    intro hretries
    exact Bool.false_ne_true hretries.1
  cases h.aftermath ha with
  | ended hlast _ hresult => exact ⟨hlast, hresult.trans houtcome⟩
  | interrupted e' hlast hretries => exact absurd hretries hpermanent
  | late e' hlast hretries => exact absurd hretries hpermanent
  | again b hnext hretries => exact absurd hretries hpermanent

/-- No attempt starts under a context that is done. If the context is done before the first attempt,
or once an attempt has failed for which there is a retry, or before the wait for it has ended, then
the error of the context is the result; and so it is if an attempt comes back with it. -/
theorem roundTrip_interrupted (r : Retrying) (send : RoundTripper S) (c : Context)
    (request : HttpRequest) (w : Timed S) :
    (∀ a ∈ r.attempts send c request w, c.err a.started.time = none) ∧
      (∀ e, c.err w.time = some e → r.attempts send c request w = [] ∧
        (outcome (r.roundTrip send c request) w).1 = .ok (.error (.context e))) ∧
      (∀ i a m e, (r.attempts send c request w)[i]? = some a → r.Retries (i + 1) a.outcome →
        c.BecomesDone a.ended.time m e →
        m = a.ended.time.now ∨
          m < (a.ended.sleep r.strategy.clock (r.strategy.wait (i + 1))).time.now →
        i + 1 = (r.attempts send c request w).length ∧
          (outcome (r.roundTrip send c request) w).1 = .ok (.error (.context e))) ∧
      (∀ i a e, (r.attempts send c request w)[i]? = some a →
        a.outcome = .ok (.error (.context e)) →
        i + 1 = (r.attempts send c request w).length ∧
          (outcome (r.roundTrip send c request) w).1 = .ok (.error (.context e))) := by
  have hhistory := history_roundTrip r send c request w
  refine ⟨fun a ha => (hhistory.forall_attempts a ha).2, ?_, ?_, ?_⟩
  · intro e he
    obtain ⟨hattempts, hresult, -⟩ := hhistory.of_err he
    exact ⟨hattempts, hresult⟩
  · intro i a m e ha hretries hdone hm
    have hend : m ≤ (a.ended.sleep r.strategy.clock (r.strategy.wait (i + 1))).time.now := by
      rcases hm with rfl | hlt
      · exact Timed.now_le_sleep _ _ _
      · exact Nat.le_of_lt hlt
    have hwait := Timed.sleepOrCancel_of_becomesDone hdone hend
    exact hhistory.of_interrupted ha hretries (congrArg Prod.fst hwait)
  · intro i a e ha houtcome
    exact hhistory.of_context ha houtcome

/-- A context that expires after 15 ms. -/
def expiring : Context := ⟨.empty, [], some 15000000⟩

/-- The second wait is from 10 ms to 20 ms. -/
theorem roundTrip_interrupted_expiring :
    (steady.attempts (slow 5) expiring rootRequest (.start 0)).length = 2 ∧
      (outcome (steady.roundTrip (slow 5) expiring rootRequest) (.start 0)).1 =
        .ok (.error (.context .deadlineExceeded)) := by
  let a := (steady.attempts (slow 5) expiring rootRequest (.start 0)).get ⟨1, by decide +kernel⟩
  have hretries : steady.Retries 2 a.outcome := by decide +kernel
  have hdone : expiring.BecomesDone a.ended.time 15000000 .deadlineExceeded :=
    Context.becomesDone_of_deadline (by decide +kernel) rfl (by decide +kernel)
  have hwait : 15000000 <
      (a.ended.sleep steady.strategy.clock (steady.strategy.wait 2)).time.now := by decide +kernel
  obtain ⟨hlength, hresult⟩ :=
    (roundTrip_interrupted steady (slow 5) expiring rootRequest (.start 0)).2.2.1 1 a 15000000
      .deadlineExceeded (List.getElem?_eq_getElem _) hretries hdone (Or.inr hwait)
  exact ⟨hlength.symm, hresult⟩

end WebResource.Retrying
