import WebResource.Context.Clock

namespace WebResource

/-!
# Waits under a context

A context is done from the first moment at which one of its signals has fired or its deadline has
come. `Context.doneAt` finds that moment, so a wait ends early exactly if the moment comes first.
-/

namespace Context

open Timed (passTo)

variable {c : Context} {t : Timeline} {m n : Nat} {e e' : ContextError}

/-- A context that is not done now and will never be. -/
def NeverDone (c : Context) (t : Timeline) : Prop := ∀ n, c.err (passTo n t) = none

/-- The first moment, now or later, at which a context is done, and the reason that it has then. -/
structure BecomesDone (c : Context) (t : Timeline) (m : Nat) (e : ContextError) : Prop where
  now_le : t.now ≤ m
  err_eq : c.err (passTo m t) = some e
  err_before : ∀ n, t.now ≤ n → n < m → c.err (passTo n t) = none

/-- The moments at which the signals of a context fire. -/
def firings (c : Context) (t : Timeline) : List Nat :=
  (t.firings.filter fun (s, _) => c.signals.contains s).map (·.2)

theorem passTo_now (h : t.now ≤ n) : (passTo n t).now = n := Nat.max_eq_right h

theorem passTo_self (t : Timeline) : passTo t.now t = t := by
  simp [passTo]

theorem passTo_passTo (m n : Nat) (t : Timeline) : passTo n (passTo m t) = passTo (max m n) t := by
  simp only [passTo, Nat.max_assoc]

theorem NeverDone.passTo (h : c.NeverDone t) (m : Nat) : c.NeverDone (passTo m t) := by
  intro n
  rw [passTo_passTo]
  exact h (max m n)

theorem firings_passTo (c : Context) (n : Nat) (t : Timeline) :
    c.firings (passTo n t) = c.firings t := rfl

theorem any_hasFired_iff : c.signals.any t.hasFired = true ↔ ∃ m ∈ c.firings t, m ≤ t.now := by
  simp only [firings, Timeline.hasFired, List.any_eq_true, List.mem_map, List.mem_filter,
    List.contains_iff_mem, Bool.and_eq_true, beq_iff_eq, decide_eq_true_eq]
  constructor
  · rintro ⟨signal, hsignal, ⟨s, m⟩, hfiring, rfl, hm⟩
    exact ⟨m, ⟨(s, m), ⟨hfiring, hsignal⟩, rfl⟩, hm⟩
  · rintro ⟨m, ⟨⟨s, m'⟩, ⟨hfiring, hsignal⟩, rfl⟩, hm⟩
    exact ⟨s, hsignal, (s, m'), hfiring, rfl, hm⟩

theorem isExpired_iff : c.isExpired t = true ↔ ∃ d, c.deadline = some d ∧ d ≤ t.now := by
  cases h : c.deadline <;> simp [isExpired, h]

theorem err_of_firing (h : ∃ m ∈ c.firings t, m ≤ t.now) : c.err t = some .canceled := by
  rw [err, any_hasFired_iff.mpr h, if_pos rfl]

theorem err_of_expired (hfirings : ∀ m ∈ c.firings t, t.now < m)
    (h : ∃ d, c.deadline = some d ∧ d ≤ t.now) : c.err t = some .deadlineExceeded := by
  have hfired : ¬c.signals.any t.hasFired = true := fun hfired => by
    obtain ⟨m, hm, hle⟩ := any_hasFired_iff.mp hfired
    exact absurd hle (Nat.not_le.mpr (hfirings m hm))
  rw [err, if_neg hfired, if_pos (isExpired_iff.mpr h)]

theorem err_eq_none_iff : c.err t = none ↔
    (∀ m ∈ c.firings t, t.now < m) ∧ ∀ d, c.deadline = some d → t.now < d := by
  constructor
  · intro h
    have hfirings : ∀ m ∈ c.firings t, t.now < m := fun m hm => by
      refine Nat.not_le.mp fun hle => ?_
      rw [err_of_firing ⟨m, hm, hle⟩] at h
      cases h
    refine ⟨hfirings, fun d hd => Nat.not_le.mp fun hle => ?_⟩
    rw [err_of_expired hfirings ⟨d, hd, hle⟩] at h
    cases h
  · rintro ⟨hfirings, hdeadline⟩
    have hfired : ¬c.signals.any t.hasFired = true := fun hfired => by
      obtain ⟨m, hm, hle⟩ := any_hasFired_iff.mp hfired
      exact absurd hle (Nat.not_le.mpr (hfirings m hm))
    have hexpired : ¬c.isExpired t = true := fun hexpired => by
      obtain ⟨d, hd, hle⟩ := isExpired_iff.mp hexpired
      exact absurd hle (Nat.not_le.mpr (hdeadline d hd))
    rw [err, if_neg hfired, if_neg hexpired]

/-! ## The moment -/

theorem earliest_some (m : Nat) (as : List Nat) :
    ∃ k ∈ m :: as, earliest (some m) as = some k ∧ ∀ a ∈ m :: as, k ≤ a := by
  induction as generalizing m with
  | nil => exact ⟨m, List.mem_singleton_self m, rfl, by simp⟩
  | cons a as ih =>
      obtain ⟨k, hk, hearliest, hle⟩ := ih (min m a)
      have hmin := hle (min m a) List.mem_cons_self
      refine ⟨k, ?_, hearliest, ?_⟩
      · rcases List.mem_cons.mp hk with rfl | hk
        · rcases Nat.le_total m a with h | h
          · simp [Nat.min_eq_left h]
          · simp [Nat.min_eq_right h]
        · exact List.mem_cons_of_mem m (List.mem_cons_of_mem a hk)
      · intro b hb
        rcases List.mem_cons.mp hb with rfl | hb
        · exact Nat.le_trans hmin (Nat.min_le_left b a)
        rcases List.mem_cons.mp hb with rfl | hb
        · exact Nat.le_trans hmin (Nat.min_le_right m b)
        · exact hle b (List.mem_cons_of_mem _ hb)

theorem firingTime_cases (c : Context) (t : Timeline) :
    (c.firingTime t = none ∧ c.firings t = []) ∨
      ∃ m ∈ c.firings t, c.firingTime t = some m ∧ ∀ a ∈ c.firings t, m ≤ a := by
  rw [firingTime, ← firings]
  cases c.firings t with
  | nil => exact Or.inl ⟨rfl, rfl⟩
  | cons a as => exact Or.inr (earliest_some a as)

/-- What `doneAt` promises. -/
def Foretells (c : Context) (t : Timeline) : Option (Nat × ContextError) → Prop
  | none => c.NeverDone t
  | some (m, e) => c.BecomesDone t m e

theorem becomesDone_of_firing (hnow : c.err t = none) (hm : m ∈ c.firings t)
    (hfirst : ∀ a ∈ c.firings t, m ≤ a) (hdeadline : ∀ d, c.deadline = some d → m ≤ d) :
    c.BecomesDone t m .canceled := by
  obtain ⟨hfirings, -⟩ := err_eq_none_iff.mp hnow
  have hle := Nat.le_of_lt (hfirings m hm)
  refine ⟨hle, err_of_firing ⟨m, hm, Nat.le_of_eq (passTo_now hle).symm⟩, fun n hn hlt => ?_⟩
  rw [err_eq_none_iff, passTo_now hn]
  exact ⟨fun a ha => Nat.lt_of_lt_of_le hlt (hfirst a ha),
    fun d hd => Nat.lt_of_lt_of_le hlt (hdeadline d hd)⟩

theorem becomesDone_of_deadline (hnow : c.err t = none) (hm : c.deadline = some m)
    (hfirings : ∀ a ∈ c.firings t, m < a) : c.BecomesDone t m .deadlineExceeded := by
  have hle := Nat.le_of_lt ((err_eq_none_iff.mp hnow).2 m hm)
  have hpass := passTo_now hle
  refine ⟨hle, ?_, fun n hn hlt => ?_⟩
  · exact err_of_expired (fun a ha => hpass.symm ▸ hfirings a ha) ⟨m, hm, Nat.le_of_eq hpass.symm⟩
  · rw [err_eq_none_iff, passTo_now hn]
    refine ⟨fun a ha => Nat.lt_trans hlt (hfirings a ha), fun d hd => ?_⟩
    obtain rfl := Option.some.inj (hm.symm.trans hd)
    exact hlt

theorem neverDone_of_nothing (hfirings : c.firings t = []) (hdeadline : c.deadline = none) :
    c.NeverDone t := by
  intro n
  rw [err_eq_none_iff, firings_passTo, hfirings, hdeadline]
  exact ⟨nofun, nofun⟩

theorem foretells_doneAt (c : Context) (t : Timeline) : c.Foretells t (c.doneAt t) := by
  rw [doneAt]
  cases hnow : c.err t with
  | some e =>
      refine ⟨Nat.le_refl _, by rw [passTo_self, hnow], fun n hn hlt => ?_⟩
      exact absurd hlt (Nat.not_lt.mpr hn)
  | none =>
      rcases firingTime_cases c t with ⟨htime, hfirings⟩ | ⟨m, hm, htime, hfirst⟩
      · cases hdeadline : c.deadline with
        | none =>
            simp only [htime]
            exact neverDone_of_nothing hfirings hdeadline
        | some d =>
            simp only [htime]
            refine becomesDone_of_deadline hnow hdeadline ?_
            rw [hfirings]
            exact nofun
      · cases hdeadline : c.deadline with
        | none =>
            simp only [htime]
            refine becomesDone_of_firing hnow hm hfirst ?_
            rw [hdeadline]
            exact nofun
        | some d =>
            simp only [htime]
            by_cases hle : m ≤ d
            · rw [if_pos hle]
              refine becomesDone_of_firing hnow hm hfirst fun d' hd => ?_
              exact Option.some.inj (hdeadline.symm.trans hd) ▸ hle
            · rw [if_neg hle]
              have hlt := Nat.not_le.mp hle
              exact becomesDone_of_deadline hnow hdeadline fun a ha => Nat.lt_of_lt_of_le hlt (hfirst a ha)

theorem BecomesDone.not_neverDone (h : c.BecomesDone t m e) : ¬c.NeverDone t := by
  intro hnever
  cases (hnever m).symm.trans h.err_eq

/-- A context becomes done once only. -/
theorem BecomesDone.unique (h : c.BecomesDone t m e) (h' : c.BecomesDone t n e') :
    m = n ∧ e = e' := by
  have hle : m ≤ n := Nat.not_lt.mp fun hlt => by
    cases (h.err_before n h'.now_le hlt).symm.trans h'.err_eq
  have hge : n ≤ m := Nat.not_lt.mp fun hlt => by
    cases (h'.err_before m h.now_le hlt).symm.trans h.err_eq
  obtain rfl := Nat.le_antisymm hle hge
  exact ⟨rfl, Option.some.inj (h.err_eq.symm.trans h'.err_eq)⟩

theorem doneAt_of_neverDone (h : c.NeverDone t) : c.doneAt t = none := by
  have hforetells := foretells_doneAt c t
  cases hdone : c.doneAt t with
  | none => rfl
  | some x =>
      rw [hdone] at hforetells
      exact absurd h hforetells.not_neverDone

theorem doneAt_of_becomesDone (h : c.BecomesDone t m e) : c.doneAt t = some (m, e) := by
  have hforetells := foretells_doneAt c t
  cases hdone : c.doneAt t with
  | none =>
      rw [hdone] at hforetells
      exact absurd hforetells h.not_neverDone
  | some x =>
      rw [hdone] at hforetells
      obtain ⟨rfl, rfl⟩ := hforetells.unique h
      rfl

theorem NeverDone.err_eq (h : c.NeverDone t) : c.err t = none := by
  have hnow := h t.now
  rwa [passTo_self] at hnow

theorem becomesDone_of_err (h : c.err t = some e) : c.BecomesDone t t.now e :=
  ⟨Nat.le_refl _, by rw [passTo_self, h], fun _ hn hlt => absurd hlt (Nat.not_lt.mpr hn)⟩

end Context

namespace Timed

open Context (BecomesDone NeverDone)

variable {S : Type} {clock : Clock} {c : Context} {d : Duration} {w : Timed S} {m : Nat}
  {e : ContextError}

/-- A wait that nothing interrupts. -/
def sleep (clock : Clock) (d : Duration) (w : Timed S) : Timed S :=
  match clock with
  | .recording => w.record d
  | .system => w.setTime (passTo (wakeAt w.time d))

/-- The same moment over another state. -/
def carrying {T : Type} (x : T) (w : Timed S) : Timed T := ⟨w.time, w.sleeps, x⟩

/-- What the clocks show, without the state. -/
def moment (w : Timed S) : Timed Unit := w.carrying ()

theorem now_le_sleep (clock : Clock) (d : Duration) (w : Timed S) :
    w.time.now ≤ (w.sleep clock d).time.now := by
  cases clock with
  | recording => exact Nat.le_refl _
  | system => exact Nat.le_max_left _ _

theorem now_sleep_system (d : Duration) (w : Timed S) :
    (w.sleep .system d).time.now = max w.time.now (wakeAt w.time d) := rfl

/-- A wait ends early if the context is done by its end. -/
theorem sleepOrCancel_eq (clock : Clock) (c : Context) (d : Duration) (w : Timed S) :
    w.sleepOrCancel clock c d =
      match c.doneAt w.time with
      | none => (.ok (), w.sleep clock d)
      | some (m, e) =>
        if m ≤ (w.sleep clock d).time.now then (.error e, w.setTime (passTo m))
        else (.ok (), w.sleep clock d) := by
  have hforetells := Context.foretells_doneAt c w.time
  unfold sleepOrCancel
  cases hnow : c.err w.time with
  | some e =>
      rw [Context.doneAt_of_becomesDone (Context.becomesDone_of_err hnow)]
      simp only [if_pos (now_le_sleep clock d w), setTime, Context.passTo_self]
  | none =>
      cases hdone : c.doneAt w.time with
      | none => cases clock <;> rfl
      | some x =>
          obtain ⟨m, e⟩ := x
          rw [hdone] at hforetells
          have hlater : w.time.now < m := Nat.lt_of_le_of_ne hforetells.now_le fun heq => by
            have herr := hforetells.err_eq
            rw [← heq, Context.passTo_self] at herr
            cases hnow.symm.trans herr
          cases clock with
          | recording => exact (if_neg (Nat.not_le.mpr hlater)).symm
          | system =>
              have hwake : m ≤ (w.sleep .system d).time.now ↔ m ≤ wakeAt w.time d := by
                rw [now_sleep_system]
                omega
              simp only [hwake]
              rfl

theorem neverDone_sleep (clock : Clock) (d : Duration) (h : c.NeverDone w.time) :
    c.NeverDone (w.sleep clock d).time := by
  cases clock with
  | recording => exact h
  | system => exact h.passTo _

theorem sleepOrCancel_of_neverDone (clock : Clock) (d : Duration) (h : c.NeverDone w.time) :
    w.sleepOrCancel clock c d = (.ok (), w.sleep clock d) := by
  rw [sleepOrCancel_eq, Context.doneAt_of_neverDone h]

theorem sleepOrCancel_of_becomesDone (h : c.BecomesDone w.time m e)
    (hm : m ≤ (w.sleep clock d).time.now) :
    w.sleepOrCancel clock c d = (.error e, w.setTime (passTo m)) := by
  simp only [sleepOrCancel_eq, Context.doneAt_of_becomesDone h, if_pos hm]

/-- What is told by a wait that has come to its end, or was ended early. -/
theorem sleepOrCancel_cases (w : Timed S) (clock : Clock) (c : Context) (d : Duration) :
    w.sleepOrCancel clock c d = (.ok (), w.sleep clock d) ∨
      ∃ m e, w.sleepOrCancel clock c d = (.error e, w.setTime (passTo m)) := by
  rw [sleepOrCancel_eq]
  cases c.doneAt w.time with
  | none => exact Or.inl rfl
  | some x =>
      by_cases hle : x.1 ≤ (w.sleep clock d).time.now
      · exact Or.inr ⟨x.1, x.2, if_pos hle⟩
      · exact Or.inl (if_neg hle)

theorem sleep_carrying {T : Type} (x : T) (clock : Clock) (d : Duration) (w : Timed S) :
    (w.carrying x).sleep clock d = (w.sleep clock d).carrying x := by
  cases clock <;> rfl

/-- A wait depends on the clocks only. -/
theorem sleepOrCancel_carrying {T : Type} (w : Timed S) (x : T) (clock : Clock) (c : Context)
    (d : Duration) : (w.carrying x).sleepOrCancel clock c d =
      ((w.sleepOrCancel clock c d).1, (w.sleepOrCancel clock c d).2.carrying x) := by
  rw [sleepOrCancel_eq, sleepOrCancel_eq, sleep_carrying]
  cases hdone : c.doneAt w.time with
  | none => simp [carrying, hdone]
  | some x =>
      by_cases hle : x.1 ≤ (w.sleep clock d).time.now <;> simp [carrying, hdone, hle, setTime]

theorem inner_sleepOrCancel (clock : Clock) (c : Context) (d : Duration) (w : Timed S) :
    (w.sleepOrCancel clock c d).2.inner = w.inner := by
  rcases w.sleepOrCancel_cases clock c d with h | ⟨m, e, h⟩
  · rw [h]
    cases clock <;> rfl
  · rw [h]
    rfl

end Timed

end WebResource
