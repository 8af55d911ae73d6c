import WebResource.Proofs.Transport.Budget

namespace WebResource

/-!
# Waits that double

The waits of the exponential strategy double from retry to retry while their factor fits 32 bits. From
the 33rd retry on the factor stays as it is, and so do the waits, however short they still are.
-/

namespace Duration

variable {d a b limit : Nat}

theorem cap_eq_cap_iff : cap a = cap b ↔ a = b ∨ (bound ≤ a ∧ bound ≤ b) := by
  rw [cap, cap, Duration.mk.injEq]
  omega

/-- A multiple that is capped is the same whether or not the duration has been capped before. -/
theorem times_cap (a : Nat) {k : Nat} (hk : 0 < k) : (cap a).times k = cap (a * k) := by
  change cap (min a bound * k) = cap (a * k)
  rw [cap_eq_cap_iff]
  rcases Nat.le_total a bound with hle | hle
  · exact Or.inl (by rw [Nat.min_eq_left hle])
  · rw [Nat.min_eq_right hle]
    have hbound : bound ≤ bound * k := Nat.le_mul_of_pos_right bound hk
    exact Or.inr ⟨hbound, hbound.trans (Nat.mul_le_mul_right k hle)⟩

theorem cap_mul_eq_iff (h : a < b) : cap (d * a) = cap (d * b) ↔ d = 0 ∨ bound ≤ d * a := by
  rw [cap_eq_cap_iff]
  rcases Nat.eq_zero_or_pos d with rfl | hd
  · simp
  · have hlt : d * a < d * b := Nat.mul_lt_mul_of_pos_left h hd
    omega

/-- A limit for the factor makes no difference where the factor is within it, or where the factor makes
none beyond it. -/
theorem cap_mul_min_eq_iff (hwithin : a ≤ limit → b = a) (hbeyond : limit < a → limit < b) :
    cap (d * min a limit) = cap (d * b) ↔ a ≤ limit ∨ d = 0 ∨ bound ≤ d * limit := by
  rcases Nat.lt_or_ge limit a with hlt | hle
  · rw [Nat.min_eq_right hlt.le, cap_mul_eq_iff (hbeyond hlt), or_iff_right (Nat.not_le.mpr hlt)]
  · rw [Nat.min_eq_left hle, hwithin hle]
    exact iff_of_true rfl (Or.inl hle)

end Duration

namespace RetryStrategy

open Act (outcome)

variable {s : RetryStrategy} {n : Nat}

/-- Larger factors than the largest one give the same wait: there is no delay at all, or the longest
duration is reached. -/
def Topped (s : RetryStrategy) : Prop :=
  s.options.delay.nanos = 0 ∨ Duration.bound ≤ s.options.delay.nanos * (2 ^ 32 - 1)

instance (s : RetryStrategy) : Decidable s.Topped := inferInstanceAs (Decidable (_ ∨ _))

theorem pow_le_iff : 2 ^ n ≤ 2 ^ 32 - 1 ↔ n < 32 := by
  rw [Nat.le_sub_one_iff_lt (by decide), Nat.pow_lt_pow_iff_right (by decide)]

theorem wait_of_exponential (hkind : s.options.strategy = .exponential) (n : Nat) :
    s.wait n = .cap (s.options.delay.nanos * min (2 ^ (n - 1)) (2 ^ 32 - 1)) := by
  rw [wait_eq_pause (by rw [hkind]; decide), RetryOptions.pause, hkind]

theorem wait_eq_doubled_iff (hkind : s.options.strategy = .exponential) (hn : 0 < n) :
    s.wait n = .cap (s.options.delay.nanos * 2 ^ (n - 1)) ↔ n ≤ 32 ∨ s.Topped := by
  rw [wait_of_exponential hkind, Duration.cap_mul_min_eq_iff (fun _ => rfl) id, pow_le_iff, Topped,
    Nat.sub_lt_iff_lt_add hn, Nat.lt_succ_iff]

theorem wait_succ_eq_twice_iff (hkind : s.options.strategy = .exponential) (hn : 0 < n) :
    s.wait (n + 1) = (s.wait n).times 2 ↔ n < 32 ∨ s.Topped := by
  have htwice : min (2 ^ (n - 1)) (2 ^ 32 - 1) * 2 = min (2 ^ n) ((2 ^ 32 - 1) * 2) := by
    have hpow : 2 ^ (n - 1) * 2 = 2 ^ n := Nat.two_pow_pred_mul_two hn
    omega
  rw [wait_of_exponential hkind, wait_of_exponential hkind, Duration.times_cap _ Nat.two_pos,
    Nat.mul_assoc, htwice, Nat.add_sub_cancel, Duration.cap_mul_min_eq_iff (by omega) (by omega),
    pow_le_iff, Topped]

/-- A retry that is allowed under a context that is never done comes behind its wait. -/
theorem outcome_waitForRetry_of_allows {S : Type} {c : Context} {w : Timed S}
    (hlive : c.NeverDone w.time) (hallows : s.allows n = true) :
    outcome (s.waitForRetry c n) w = (.ok (.ok true), w.sleep s.clock (s.wait n)) := by
  rw [Retrying.outcome_waitForRetry, if_pos hallows, Timed.sleepOrCancel_of_neverDone _ _ hlive]

/-- The exponential strategy waits before the `n`-th retry for the delay times the `n - 1`-st power of
two, with the largest number of 32 bits in place of larger powers. So the wait is the delay doubled
`n - 1` times and capped at the longest duration, and the next wait is twice as long, exactly as long as
the power fits 32 bits, unless there is no delay or the longest duration is reached. -/
theorem wait_doubles_iff {S : Type} (s : RetryStrategy) (hkind : s.options.strategy = .exponential)
    {n : Nat} (hn : 0 < n) :
    (∀ (c : Context) (w : Timed S), c.NeverDone w.time → s.allows n = true →
      outcome (s.waitForRetry c n) w = (.ok (.ok true), w.sleep s.clock (s.wait n))) ∧
    s.wait n = .cap (s.options.delay.nanos * min (2 ^ (n - 1)) (2 ^ 32 - 1)) ∧
    (s.wait n = .cap (s.options.delay.nanos * 2 ^ (n - 1)) ↔ n ≤ 32 ∨ s.Topped) ∧
    (s.wait (n + 1) = (s.wait n).times 2 ↔ n < 32 ∨ s.Topped) :=
  ⟨fun _ _ hlive hallows => outcome_waitForRetry_of_allows hlive hallows,
    wait_of_exponential hkind n, wait_eq_doubled_iff hkind hn, wait_succ_eq_twice_iff hkind hn⟩

/-- Up to 40 retries from one nanosecond on. -/
def tiny : RetryStrategy := ⟨⟨.exponential, ⟨1⟩, 40, none⟩, .recording, fun _ => .zero⟩

/-- The wait before the 33rd retry is a nanosecond short of the doubled delay, and it stays so. -/
theorem wait_doubles_iff_tiny :
    tiny.wait 33 = ⟨4294967295⟩ ∧ tiny.wait 33 ≠ .cap (tiny.options.delay.nanos * 2 ^ (33 - 1)) ∧
      tiny.wait 34 ≠ (tiny.wait 33).times 2 ∧
      (outcome (tiny.waitForRetry .background 33) (.start ())).2.sleeps = [⟨4294967295⟩] := by
  have htopped : ¬tiny.Topped := by decide
  obtain ⟨hslept, hwait, hdoubled, htwice⟩ :=
    wait_doubles_iff (S := Unit) tiny rfl (show 0 < 33 by decide)
  have hwait : tiny.wait 33 = ⟨4294967295⟩ := hwait.trans (by decide +kernel)
  refine ⟨hwait, fun h => ?_, fun h => ?_, ?_⟩
  · exact (hdoubled.mp h).elim (by decide) htopped
  · exact (htwice.mp h).elim (by decide) htopped
  · rw [hslept .background (.start ()) (fun _ => rfl) (by decide +kernel), hwait]
    rfl

end RetryStrategy

end WebResource
