import Mathlib.Algebra.BigOperators.Group.Finset.Basic
import Mathlib.Order.Bounds.Basic
import WebResource.Proofs.Transport.Retries

namespace WebResource

/-!
# The budget of retries

Under a context that is never done, a request is sent until an outcome asks for no retry, or the
retries are used up, or the waits would exceed the timeout, whichever comes first.
-/

/-- The wait before the `n`-th retry, if it is not left to chance. -/
def RetryOptions.pause (o : RetryOptions) (n : Nat) : Duration :=
  match o.strategy with
  | .exponential => .cap (o.delay.nanos * min (2 ^ (n - 1)) (2 ^ 32 - 1))
  | _ => o.delay

/-- The sum of the waits before the first `n` retries. -/
def RetryOptions.pauses (o : RetryOptions) (n : Nat) : Nat :=
  ∑ i ∈ Finset.range n, (o.pause (i + 1)).nanos

namespace RetryStrategy

variable {s : RetryStrategy}

theorem factor_eq (n : Nat) : factor n = min (2 ^ (n - 1)) (2 ^ 32 - 1) := by
  rw [factor]
  split
  · next h =>
      have hle : 2 ^ (n - 1) ≤ 2 ^ 31 := Nat.pow_le_pow_right Nat.two_pos (by omega)
      exact (Nat.min_eq_left (Nat.le_trans hle (by decide))).symm
  · next h =>
      have hle : 2 ^ 32 ≤ 2 ^ (n - 1) := Nat.pow_le_pow_right Nat.two_pos (by omega)
      exact (Nat.min_eq_right (Nat.le_trans (by decide) hle)).symm

theorem longest_eq_pause (s : RetryStrategy) (n : Nat) : s.longest n = s.options.pause n := by
  rw [longest, RetryOptions.pause]
  cases s.options.strategy with
  | exponential => rw [Duration.times, factor_eq]
  | fixed => rfl
  | jitter => rfl

theorem wait_eq_pause (h : s.options.strategy ≠ .jitter) (n : Nat) :
    s.wait n = s.options.pause n := by
  rw [← longest_eq_pause, wait]
  cases hkind : s.options.strategy with
  | exponential => rfl
  | fixed => rfl
  | jitter => exact absurd hkind h

theorem projected_succ (s : RetryStrategy) (n : Nat) :
    s.projected (n + 1) = (s.projected n).add (s.longest (n + 1)) := by
  rw [projected, Nat.fold_succ]
  rfl

/-- Capped at each step, a sum is the whole sum capped once. -/
theorem nanos_projected (s : RetryStrategy) (n : Nat) :
    (s.projected n).nanos = min (s.options.pauses n) Duration.bound := by
  induction n with
  | zero => rfl
  | succ n ih =>
      rw [projected_succ, longest_eq_pause, RetryOptions.pauses, Finset.sum_range_succ,
        ← RetryOptions.pauses, Duration.add, Duration.cap, ih]
      simp only
      omega

theorem allows_iff (htimeout : ∀ limit, s.options.timeout = some limit → limit.nanos < Duration.bound)
    (n : Nat) : s.allows n = true ↔ n ≤ s.options.maxRetries ∧
      ∀ limit, s.options.timeout = some limit → s.options.pauses n ≤ limit.nanos := by
  rw [allows, Bool.and_eq_true, decide_eq_true_eq]
  refine and_congr_right fun _ => ?_
  cases h : s.options.timeout with
  | none => simp
  | some limit =>
      have hlimit := htimeout limit h
      simp only [decide_eq_true_eq, Option.some.injEq, forall_eq', nanos_projected]
      omega

end RetryStrategy

namespace Retrying

open Act (outcome)

variable {S : Type} {r : Retrying} {c : Context} {request : HttpRequest} {n : Nat}
  {now finish : Timed Unit} {as : List (Attempt S)} {result : Except Payload (Delivery S)}

/-! ## Attempts without interruption -/

/-- Each attempt is the last one, whose outcome is the result, or it is followed by the wait for its
retry and then by the next. -/
structure Undisturbed (r : Retrying) (now : Timed Unit) (as : List (Attempt S))
    (result : Except Payload (Delivery S)) (finish : Timed Unit) : Prop where
  length_pos : 0 < as.length
  started : ∀ a ∈ as.head?, a.started = now
  followed : ∀ i a, as[i]? = some a →
    (i + 1 = as.length ∧ ¬r.Retries (i + 1) a.outcome ∧ result = a.outcome ∧ finish = a.ended) ∨
      (r.Retries (i + 1) a.outcome ∧ ∃ b, as[i + 1]? = some b ∧
        b.started = a.ended.sleep r.strategy.clock (r.strategy.wait (i + 1)))

theorem History.undisturbed (h : History r c request 0 now as result finish)
    (hnow : c.NeverDone now.time) (has : ∀ a ∈ as, c.NeverDone a.ended.time) :
    Undisturbed r now as result finish := by
  obtain ⟨first, hfirst, hstarted⟩ := h.of_live hnow.err_eq
  refine ⟨List.length_pos_of_mem (List.mem_of_getElem? hfirst), ?_, ?_⟩
  · intro a ha
    rw [List.head?_eq_getElem?, hfirst] at ha
    exact Option.some.inj ha ▸ hstarted
  · intro i a ha
    have hended := has a (List.mem_of_getElem? ha)
    have hsleep := Timed.sleepOrCancel_of_neverDone r.strategy.clock (r.strategy.wait (i + 1)) hended
    have haftermath := h.aftermath ha
    rw [Nat.zero_add] at haftermath
    cases haftermath with
    | ended hlast hpermanent hresult hfinish => exact Or.inl ⟨hlast, hpermanent, hresult, hfinish⟩
    | interrupted e _ _ hwait => cases hsleep.symm.trans hwait
    | late e _ _ hwait hdone =>
        obtain rfl := (Prod.mk.inj (hsleep.symm.trans hwait)).2
        have hlive := (Timed.neverDone_sleep r.strategy.clock (r.strategy.wait (i + 1)) hended).err_eq
        cases hlive.symm.trans hdone
    | again b hnext hretries hwait =>
        have hnow := (Prod.mk.inj (hsleep.symm.trans hwait)).2
        exact Or.inr ⟨hretries, b, hnext, hnow.symm⟩

/-! ## The last attempt -/

/-- An outcome after which the `n`-th attempt is the last: it asks for no retry, or the `n`-th retry is
one too many, or the waits up to it exceed the timeout. -/
def Ends (r : Retrying) (n : Nat) (o : Except Payload (Delivery S)) : Prop :=
  ¬(∃ d, o = .ok d ∧ r.isTransientDelivery d = true) ∨ r.strategy.options.maxRetries < n ∨
    ∃ limit, r.strategy.options.timeout = some limit ∧
      limit.nanos < r.strategy.options.pauses n

theorem retries_iff_not_ends (htimeout : ∀ limit, r.strategy.options.timeout = some limit →
    limit.nanos < Duration.bound) {o : Except Payload (Delivery S)} :
    r.Retries n o ↔ ¬r.Ends n o := by
  cases o with
  | error p => simp [Retries, Ends]
  | ok d => simp [Retries, Ends, RetryStrategy.allows_iff htimeout]

section Undisturbed

variable {i : Nat} {outcomes : Nat → Except Payload (Delivery S)}
  (h : Undisturbed r now as result finish)

include h

theorem Undisturbed.retries (hi : i + 1 < as.length) :
    ∃ a, as[i]? = some a ∧ r.Retries (i + 1) a.outcome := by
  have ha : as[i]? = some as[i] := List.getElem?_eq_getElem (Nat.lt_of_succ_lt hi)
  rcases h.followed i as[i] ha with ⟨hlast, -⟩ | ⟨hretries, -⟩
  · exact absurd hlast (Nat.ne_of_lt hi)
  · exact ⟨as[i], ha, hretries⟩

theorem Undisturbed.last : ∃ a, as[as.length - 1]? = some a ∧ ¬r.Retries as.length a.outcome ∧
    result = a.outcome ∧ finish = a.ended := by
  have hpos := h.length_pos
  obtain ⟨a, ha⟩ : ∃ a, as[as.length - 1]? = some a :=
    ⟨_, List.getElem?_eq_getElem (Nat.sub_lt hpos Nat.one_pos)⟩
  have hfollowed := h.followed _ a ha
  rw [Nat.sub_add_cancel hpos] at hfollowed
  rcases hfollowed with ⟨-, hlast⟩ | ⟨-, b, hb, -⟩
  · exact ⟨a, ha, hlast⟩
  · rw [List.getElem?_length] at hb
    cases hb

theorem Undisturbed.result_eq (houtcomes : ∀ i a, as[i]? = some a → a.outcome = outcomes (i + 1)) :
    result = outcomes as.length ∧ ¬r.Retries as.length (outcomes as.length) := by
  obtain ⟨a, ha, hlast, hresult, -⟩ := h.last
  have houtcome := houtcomes _ a ha
  rw [Nat.sub_add_cancel h.length_pos] at houtcome
  rw [houtcome] at hresult hlast
  exact ⟨hresult, hlast⟩

theorem Undisturbed.isLeast (htimeout : ∀ limit, r.strategy.options.timeout = some limit →
      limit.nanos < Duration.bound)
    (houtcomes : ∀ i a, as[i]? = some a → a.outcome = outcomes (i + 1)) :
    IsLeast {n | 1 ≤ n ∧ r.Ends n (outcomes n)} as.length := by
  have hlast := (h.result_eq houtcomes).2
  rw [retries_iff_not_ends htimeout, Classical.not_not] at hlast
  refine ⟨⟨h.length_pos, hlast⟩, ?_⟩
  rintro n ⟨hn, hends⟩
  refine Nat.not_lt.mp fun hlt => ?_
  obtain ⟨i, rfl⟩ := Nat.exists_eq_add_of_le' hn
  obtain ⟨a, ha, hretries⟩ := h.retries hlt
  rw [retries_iff_not_ends htimeout, houtcomes i a ha] at hretries
  exact hretries hends

/-- The last retry was within the budget, which covers all waits before it. -/
theorem Undisturbed.within_budget (htimeout : ∀ limit, r.strategy.options.timeout = some limit →
      limit.nanos < Duration.bound) :
    as.length ≤ r.strategy.options.maxRetries + 1 ∧
      ∀ limit, r.strategy.options.timeout = some limit →
        r.strategy.options.pauses (as.length - 1) ≤ limit.nanos := by
  have hpos := h.length_pos
  match hlength : as.length, hpos with
  | 1, _ =>
      refine ⟨Nat.le_add_left _ _, fun limit _ => ?_⟩
      exact Nat.zero_le limit.nanos
  | i + 2, _ =>
      obtain ⟨a, -, hretries⟩ := h.retries (show i + 1 < as.length by omega)
      obtain ⟨hcount, hpauses⟩ := (RetryStrategy.allows_iff htimeout _).mp (allows_of_retries hretries)
      exact ⟨Nat.succ_le_succ hcount, hpauses⟩

end Undisturbed

/-- Under a context that is never done, a request is sent up to the first outcome that ends the
attempts, which is the result. Between two attempts there is the wait for the retry, and no other; and
what is sent is the request. -/
theorem roundTrip_undisturbed (r : Retrying) (hkind : r.strategy.options.strategy ≠ .jitter)
    (htimeout : ∀ limit, r.strategy.options.timeout = some limit → limit.nanos < Duration.bound)
    (send : RoundTripper S) (c : Context) (request : HttpRequest) (w : Timed S)
    (hstart : c.NeverDone w.time)
    (hends : ∀ a ∈ r.attempts send c request w, c.NeverDone a.ended.time)
    (outcomes : Nat → Except Payload (Delivery S))
    (houtcomes : ∀ i a, (r.attempts send c request w)[i]? = some a → a.outcome = outcomes (i + 1)) :
    IsLeast {n | 1 ≤ n ∧ r.Ends n (outcomes n)} (r.attempts send c request w).length ∧
      (outcome (r.roundTrip send c request) w).1 = outcomes (r.attempts send c request w).length ∧
      ((∀ a ∈ (r.attempts send c request w).head?, a.started = w.moment) ∧
        (∀ i a b, (r.attempts send c request w)[i]? = some a →
          (r.attempts send c request w)[i + 1]? = some b →
          b.started = a.ended.sleep r.strategy.clock (r.strategy.options.pause (i + 1))) ∧
        ∀ a ∈ (r.attempts send c request w).getLast?,
          (outcome (r.roundTrip send c request) w).2.moment = a.ended) ∧
      (r.attempts send c request w).length ≤ r.strategy.options.maxRetries + 1 ∧
      (∀ limit, r.strategy.options.timeout = some limit →
        r.strategy.options.pauses ((r.attempts send c request w).length - 1) ≤ limit.nanos) ∧
      ∀ a ∈ r.attempts send c request w,
        a.request.toTransportRequest = request.toTransportRequest ∧
          a.request.version = request.version := by
  have hhistory := history_roundTrip r send c request w
  have hundisturbed := hhistory.undisturbed hstart hends
  refine ⟨hundisturbed.isLeast htimeout houtcomes, (hundisturbed.result_eq houtcomes).1,
    ⟨hundisturbed.started, fun i a b ha hb => ?_, fun a ha => ?_⟩,
    (hundisturbed.within_budget htimeout).1, (hundisturbed.within_budget htimeout).2, fun a ha => ?_⟩
  · have hlt := (List.getElem?_eq_some_iff.mp hb).1
    rcases hundisturbed.followed i a ha with ⟨hlast, -⟩ | ⟨-, b', hb', hwait⟩
    · exact absurd hlast (Nat.ne_of_lt hlt)
    · obtain rfl := Option.some.inj (hb.symm.trans hb')
      rwa [RetryStrategy.wait_eq_pause hkind] at hwait
  · obtain ⟨b, hb, -, -, hfinish⟩ := hundisturbed.last
    rw [List.getLast?_eq_getElem?] at ha
    rw [hfinish, Option.some.inj (ha.symm.trans hb)]
  · rw [(hhistory.forall_attempts a ha).1]
    exact ⟨rfl, rfl⟩

theorem roundTrip_undisturbed_slow : ∃ outcomes : Nat → Except Payload (Delivery Nat),
    IsLeast {n | 1 ≤ n ∧ steady.Ends n (outcomes n)} 3 ∧
      (outcome (steady.roundTrip (slow 2) .background rootRequest) (.start 0)).1 = outcomes 3 := by
  have hlength : (steady.attempts (slow 2) .background rootRequest (.start 0)).length = 3 := by
    decide +kernel
  let outcomes (n : Nat) : Except Payload (Delivery Nat) :=
    ((steady.attempts (slow 2) .background rootRequest (.start 0))[n - 1]?.map (·.outcome)).getD
      (.error .other)
  have h := roundTrip_undisturbed steady (by decide) (by rintro _ ⟨⟩; decide) (slow 2) .background
    rootRequest (.start 0) (fun _ => rfl) (fun _ _ _ => rfl) outcomes fun i a ha => by simp [outcomes, ha]
  rw [hlength] at h
  exact ⟨outcomes, h.1, h.2.1⟩

end Retrying

end WebResource
