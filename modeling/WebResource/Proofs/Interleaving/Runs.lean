import Mathlib.Data.Fintype.Card
import Mathlib.Data.List.Dedup
import WebResource.Proofs.Interleaving.Atomic
import WebResource.Proofs.Trace

namespace WebResource

/-!
# Interleaved runs

Programs run side by side over a shared state, one step of one of them at a time. If each acts at
once, every run is a run of one program after another, in the order of their last questions that count.
-/

/-- Programs that run side by side, by name. -/
abbrev Pool (Q : Type) (R : Q → Type) (α ι : Type) := ι → Prog Q R α

namespace Pool

variable {Q S V α ι : Type} {R : Q → Type} [DecidableEq ι]

/-- A run of a pool, with all that is asked for on the way and by whom. A question is answered at
once. -/
inductive Run (answer : (q : Q) → Act S (R q)) :
    Pool Q R α ι → S → List (ι × Q) → Pool Q R α ι → S → Prop where
  | refl (p : Pool Q R α ι) (s : S) : Run answer p s [] p s
  | log {p p' : Pool Q R α ι} {s s' : S} {σ : List (ι × Q)} {r : LogRecord} {x : Prog Q R α} (i : ι)
      (h : p i = .log r x) (hrun : Run answer (Function.update p i x) s σ p' s') :
      Run answer p s σ p' s'
  | ask {p p' : Pool Q R α ι} {s s' : S} {σ : List (ι × Q)} {q : Q}
      {k : Except Payload (R q) → Prog Q R α} (i : ι) (h : p i = .ask q k)
      (hrun : Run answer (Function.update p i (k (Act.outcome (answer q) s).1))
        (Act.outcome (answer q) s).2 σ p' s') :
      Run answer p s ((i, q) :: σ) p' s'

namespace Run

variable {answer : (q : Q) → Act S (R q)} {p p₁ p' : Pool Q R α ι} {s s₁ s' : S}
  {σ τ : List (ι × Q)}

theorem append (h : Run answer p s σ p₁ s₁) (h' : Run answer p₁ s₁ τ p' s') :
    Run answer p s (σ ++ τ) p' s' := by
  induction h with
  | refl p s => exact h'
  | log i hi hrun ih => exact .log i hi (ih h')
  | ask i hi hrun ih => exact .ask i hi (ih h')

/-! ## Ends of runs -/

/-- One program may run to its end while the others wait. -/
theorem exists_end_one (answer : (q : Q) → Act S (R q)) (i : ι) (p : Pool Q R α ι) (s : S) :
    ∃ σ p' s' a, Run answer p s σ p' s' ∧ p' i = .ofExcept a ∧ ∀ j, j ≠ i → p' j = p j := by
  generalize hx : p i = x
  induction x generalizing p s with
  | done a => exact ⟨[], p, s, .ok a, .refl p s, hx, fun _ _ => rfl⟩
  | panic e => exact ⟨[], p, s, .error e, .refl p s, hx, fun _ _ => rfl⟩
  | log r x ih =>
      obtain ⟨σ, p', s', a, hrun, hend, hothers⟩ := ih (Function.update p i x) s (by simp)
      refine ⟨σ, p', s', a, .log i hx hrun, hend, fun j hj => ?_⟩
      rw [hothers j hj, Function.update_of_ne hj]
  | ask q k ih =>
      obtain ⟨σ, p', s', a, hrun, hend, hothers⟩ := ih (Act.outcome (answer q) s).1
        (Function.update p i (k (Act.outcome (answer q) s).1)) (Act.outcome (answer q) s).2 (by simp)
      refine ⟨(i, q) :: σ, p', s', a, .ask i hx hrun, hend, fun j hj => ?_⟩
      rw [hothers j hj, Function.update_of_ne hj]

theorem exists_end_of_list (answer : (q : Q) → Act S (R q)) (l : List ι) (p : Pool Q R α ι) (s : S) :
    ∃ σ p' s', Run answer p s σ p' s' ∧ ∀ i ∈ l, ∃ a, p' i = .ofExcept a := by
  induction l with
  | nil => exact ⟨[], p, s, .refl p s, by simp⟩
  | cons i l ih =>
      obtain ⟨σ, p₁, s₁, hrun, hends⟩ := ih
      obtain ⟨τ, p', s', a, hrun', hend, hothers⟩ := exists_end_one answer i p₁ s₁
      refine ⟨σ ++ τ, p', s', hrun.append hrun', fun j hj => ?_⟩
      rcases eq_or_ne j i with rfl | hne
      · exact ⟨a, hend⟩
      · rw [hothers j hne]
        exact hends j ((List.mem_cons.mp hj).resolve_left hne)

/-- Every run can go on until all programs have ended. -/
theorem exists_end [Finite ι] (answer : (q : Q) → Act S (R q)) (p : Pool Q R α ι) (s : S) :
    ∃ σ p' s', ∃ results : ι → Except Payload α,
      Run answer p s σ p' s' ∧ ∀ i, p' i = .ofExcept (results i) := by
  obtain ⟨l, -, hl⟩ := Finite.exists_univ_list ι
  obtain ⟨σ, p', s', hrun, hends⟩ := exists_end_of_list answer l p s
  choose results hresults using fun i => hends i (hl i)
  exact ⟨σ, p', s', results, hrun, hresults⟩

end Run

/-! ## Orders -/

/-- Who asks for something that counts, time after time. -/
def callers (counts : Q → Bool) (σ : List (ι × Q)) : List ι := (σ.filter fun c => counts c.2).map Prod.fst

/-- Who asks for something that counts, in the order of the last time. -/
def order (counts : Q → Bool) (σ : List (ι × Q)) : List ι := (callers counts σ).dedup

/-- The state after one has acted after another. -/
def inTurn (spec : ι → S → Except Payload α × S) (l : List ι) (s : S) : S :=
  l.foldl (fun s i => (spec i s).2) s

section Callers

variable {counts : Q → Bool} {i j : ι} {q : Q} {σ τ : List (ι × Q)}

omit [DecidableEq ι] in
theorem callers_cons_of_counts (hq : counts q = true) :
    callers counts ((i, q) :: σ) = i :: callers counts σ := by
  simp [callers, hq]

omit [DecidableEq ι] in
theorem callers_cons_of_other (hq : counts q = false) :
    callers counts ((i, q) :: σ) = callers counts σ := by
  simp [callers, hq]

omit [DecidableEq ι] in
theorem mem_callers_cons_of_ne (hne : i ≠ j) :
    i ∈ callers counts ((j, q) :: σ) ↔ i ∈ callers counts σ := by
  cases hq : counts q with
  | true => rw [callers_cons_of_counts hq, List.mem_cons, or_iff_right hne]
  | false => rw [callers_cons_of_other hq]

omit [DecidableEq ι] in
theorem mem_callers_append :
    i ∈ callers counts (σ ++ τ) ↔ i ∈ callers counts σ ∨ i ∈ callers counts τ := by
  simp [callers]

theorem order_cons_of_other (hq : counts q = false) :
    order counts ((i, q) :: σ) = order counts σ := by
  rw [order, callers_cons_of_other hq]
  rfl

theorem order_cons_of_mem (hq : counts q = true) (hi : i ∈ callers counts σ) :
    order counts ((i, q) :: σ) = order counts σ := by
  rw [order, callers_cons_of_counts hq, List.dedup_cons_of_mem hi]
  rfl

theorem order_cons_of_notMem (hq : counts q = true) (hi : i ∉ callers counts σ) :
    order counts ((i, q) :: σ) = i :: order counts σ := by
  rw [order, callers_cons_of_counts hq, List.dedup_cons_of_notMem hi]
  rfl

theorem mem_order : i ∈ order counts σ ↔ i ∈ callers counts σ := List.mem_dedup

end Callers

/-! ## Steps of one program -/

section Steps

variable {w : Shared Q R S V} {p p' : Pool Q R α ι} {s s' : S} {σ : List (ι × Q)} {i j : ι}

/-- What holds of a program that goes on holds of each program of the pool. -/
theorem update_of {P : ι → Prog Q R α → Prop} {x y : Prog Q R α} (hj : p j = y) (h : P i (p i))
    (hx : P j y → P j x) : P i (Function.update p j x i) := by
  rcases eq_or_ne i j with rfl | hne
  · rw [Function.update_self]
    rw [hj] at h
    exact hx h
  · rw [Function.update_of_ne hne]
    exact h

/-- A program that never ends in some way does not do so after it has been run for a while. -/
theorem Run.never {answer : (q : Q) → Act S (R q)} {a : Except Payload α}
    (h : Run answer p s σ p' s') (hi : ¬(p i).Ends a) : ¬(p' i).Ends a := by
  induction h with
  | refl p s => exact hi
  | @log p p' s s' σ r x j hj hrun ih =>
      apply ih
      exact update_of (P := fun _ x => ¬x.Ends a) hj hi fun hnot hx => hnot (.log r hx)
  | @ask p p' s s' σ q k j hj hrun ih =>
      apply ih
      exact update_of (P := fun _ x => ¬x.Ends a) hj hi fun hnot hx => hnot (.ask _ hx)

/-- A settled program asks for nothing that counts, and ends as it has to. -/
theorem Run.settled {a : Except Payload α} (h : Run w.answer p s σ p' s')
    (hi : w.Settled a (p i)) : w.Settled a (p' i) ∧ i ∉ callers w.counts σ := by
  induction h with
  | refl p s => exact ⟨hi, List.not_mem_nil⟩
  | @log p p' s s' σ r x j hj hrun ih =>
      apply ih
      exact update_of (P := fun _ => w.Settled a) hj hi fun hlog => hlog
  | @ask p p' s s' σ q k j hj hrun ih =>
      rcases eq_or_ne i j with rfl | hne
      · rw [hj] at hi
        rw [callers_cons_of_other hi.1.2]
        apply ih
        rw [Function.update_self]
        exact hi.2 s
      · rw [mem_callers_cons_of_ne hne]
        apply ih
        rw [Function.update_of_ne hne]
        exact hi

/-- A program that has not acted yet and asks for nothing that counts has still to act. -/
theorem Run.atomic {spec : S → Except Payload α × S} (h : Run w.answer p s σ p' s')
    (hi : w.Atomic spec (p i)) (hnot : i ∉ callers w.counts σ) : w.Atomic spec (p' i) := by
  induction h with
  | refl p s => exact hi
  | @log p p' s s' σ r x j hj hrun ih =>
      apply ih _ hnot
      exact update_of (P := fun _ => w.Atomic spec) hj hi fun hlog => hlog
  | @ask p p' s s' σ q k j hj hrun ih =>
      rcases eq_or_ne i j with rfl | hne
      · cases hq : w.counts q with
        | true =>
            rw [callers_cons_of_counts hq] at hnot
            exact absurd List.mem_cons_self hnot
        | false =>
            rw [callers_cons_of_other hq] at hnot
            apply ih _ hnot
            rw [Function.update_self]
            rw [hj] at hi
            exact ((Shared.atomic_ask_of_other hq).mp hi).2 s
      · rw [mem_callers_cons_of_ne hne] at hnot
        apply ih _ hnot
        rw [Function.update_of_ne hne]
        exact hi

theorem Run.proper (h : Run w.answer p s σ p' s') (hp : ∀ i, w.Proper (p i)) :
    ∀ i, w.Proper (p' i) := by
  induction h with
  | refl p s => exact hp
  | @log p p' s s' σ r x j hj hrun ih =>
      apply ih
      intro i
      exact update_of (P := fun _ => w.Proper) hj (hp i) fun hlog => hlog
  | @ask p p' s s' σ q k j hj hrun ih =>
      apply ih
      intro i
      exact update_of (P := fun _ => w.Proper) hj (hp i) fun hask => hask.2 s

/-- What every answer keeps that occurs in a run is kept by the run. -/
theorem Run.invariant (P : S → Prop) (allowed : Q → Prop) (h : Run w.answer p s σ p' s')
    (hp : ∀ i, w.Proper (p i)) (hσ : ∀ c ∈ σ, allowed c.2)
    (hstep : ∀ q s, w.proper q → allowed q → P s → P (w.reply q s).2) (hs : P s) : P s' := by
  induction h with
  | refl p s => exact hs
  | @log p p' s s' σ r x j hj hrun ih =>
      exact ih (Run.proper (.log j hj (.refl _ s)) hp) hσ hs
  | @ask p p' s s' σ q k j hj hrun ih =>
      have hq : w.proper q := by
        have hask := hp j
        rw [hj] at hask
        exact hask.1
      refine ih (Run.proper (.ask j hj (.refl _ _)) hp) (fun c hc => ?_) ?_
      · exact hσ c (List.mem_cons_of_mem (j, q) hc)
      · exact hstep q s hq (hσ (j, q) List.mem_cons_self) hs

end Steps

/-! ## Serial runs -/

section Serial

variable {w : Shared Q R S V} {spec : ι → S → Except Payload α × S} {results : ι → Except Payload α}
  {p p₁ p' : Pool Q R α ι} {s s₁ s' t : S} {σ τ : List (ι × Q)}

omit [DecidableEq ι] in
theorem inTurn_congr (hspec : ∀ i s s', w.view s = w.view s' → w.Same (spec i s) (spec i s'))
    (l : List ι) (h : w.view s = w.view s') :
    w.view (inTurn spec l s) = w.view (inTurn spec l s') := by
  induction l generalizing s s' with
  | nil => exact h
  | cons i l ih => exact ih (hspec i s s' h).view

/-- A part of a run, as it looks after the whole run: what counts at its end is what the programs leave
behind that have acted by then, and each of these has ended as if it ran alone in its turn. -/
structure Serialized (w : Shared Q R S V) (spec : ι → S → Except Payload α × S)
    (results : ι → Except Payload α) (s s' : S) (σ τ : List (ι × Q)) : Prop where
  view : w.view s' =
    w.view (inTurn spec ((order w.counts (σ ++ τ)).filter (· ∉ callers w.counts τ)) s)
  results : ∀ before i after, order w.counts (σ ++ τ) = before ++ i :: after →
    i ∉ callers w.counts τ → results i = (spec i (inTurn spec before s)).1

theorem Serialized.congr (hspec : ∀ i s s', w.view s = w.view s' → w.Same (spec i s) (spec i s'))
    (h : Serialized w spec results s s' σ τ) (ht : w.view s = w.view t) :
    Serialized w spec results t s' σ τ := by
  refine ⟨h.view.trans (inTurn_congr hspec _ ht), fun before i after horder hi => ?_⟩
  rw [h.results before i after horder hi]
  exact (hspec i _ _ (inTurn_congr hspec before ht)).result

/-- A program acts for the last time, as it is specified, and the others follow. -/
theorem Serialized.cons (hspec : ∀ i s s', w.view s = w.view s' → w.Same (spec i s) (spec i s'))
    (h : Serialized w spec results s₁ s' σ τ) {i : ι} {q : Q} (hq : w.counts q = true)
    (hnot : i ∉ callers w.counts (σ ++ τ)) (hview : w.view s₁ = w.view (spec i s).2)
    (hresult : results i = (spec i s).1) : Serialized w spec results s s' ((i, q) :: σ) τ := by
  have hnext := h.congr hspec hview
  have horder : order w.counts ((i, q) :: σ ++ τ) = i :: order w.counts (σ ++ τ) :=
    order_cons_of_notMem hq hnot
  have hi : i ∉ callers w.counts τ := fun hi => hnot (mem_callers_append.mpr (Or.inr hi))
  constructor
  · rw [horder, List.filter_cons_of_pos (by simpa using hi)]
    exact hnext.view
  · intro before j after hsplit hj
    rw [horder] at hsplit
    cases before with
    | nil =>
        obtain rfl : i = j := (List.cons.inj hsplit).1
        exact hresult
    | cons b before =>
        obtain ⟨rfl, hrest⟩ := List.cons.inj hsplit
        exact hnext.results before j after hrest hj

variable (hspec : ∀ i s s', w.view s = w.view s' → w.Same (spec i s) (spec i s'))

include hspec

/-- A question that counts is the last one of a program, which then acts as specified, or it changes
nothing that counts. -/
theorem Run.serialized_ask {i : ι} {q : Q} {k : Except Payload (R q) → Prog Q R α}
    (hq : w.counts q = true) (hatomic : w.Atomic (spec i) (.ask q k))
    (hrun : Run w.answer (Function.update p i (k (w.reply q s).1)) (w.reply q s).2 (σ ++ τ) p' s')
    (hend : ∀ i, p' i = .ofExcept (results i))
    (h : Serialized w spec results (w.reply q s).2 s₁ σ τ) :
    Serialized w spec results s s₁ ((i, q) :: σ) τ := by
  by_cases hmem : i ∈ callers w.counts (σ ++ τ)
  · rcases ((Shared.atomic_ask_of_counts hq).mp hatomic).2 s with ⟨hsettled, -⟩ | ⟨hview, -⟩
    · rw [← Function.update_self i (k (w.reply q s).1) p] at hsettled
      exact absurd hmem (hrun.settled hsettled).2
    · have hnext := h.congr hspec hview
      have horder : order w.counts ((i, q) :: σ ++ τ) = order w.counts (σ ++ τ) :=
        order_cons_of_mem hq hmem
      constructor
      · rw [horder]
        exact hnext.view
      · rw [horder]
        exact hnext.results
  -- The program asks for the last time, and its result is settled by that or has been all the time.
  · rcases ((Shared.atomic_ask_of_counts hq).mp hatomic).2 s with ⟨hsettled, hview⟩ | ⟨hview, hatomic'⟩
    · rw [← Function.update_self i (k (w.reply q s).1) p] at hsettled
      have hended := (hrun.settled hsettled).1
      rw [hend i] at hended
      exact h.cons hspec hq hmem hview hended.of_ended.symm
    · rw [← Function.update_self i (k (w.reply q s).1) p] at hatomic'
      have hended := hrun.atomic hatomic' hmem
      rw [hend i] at hended
      have hsame := hended.of_ended s
      exact h.cons hspec hq hmem (hview.trans hsame.view.symm) hsame.result.symm

theorem Run.serialized (hσ : Run w.answer p s σ p₁ s₁) (hτ : Run w.answer p₁ s₁ τ p' s')
    (hend : ∀ i, p' i = .ofExcept (results i)) (hready : ∀ i, w.Ready (spec i) (p i)) :
    Serialized w spec results s s₁ σ τ := by
  induction hσ with
  | refl p s =>
      have hnone : (order w.counts τ).filter (· ∉ callers w.counts τ) = [] := by
        rw [List.filter_eq_nil_iff]
        intro i hi
        simpa using mem_order.mp hi
      constructor
      · rw [List.nil_append, hnone]
        rfl
      · intro before i after horder hi
        refine absurd (mem_order.mp ?_) hi
        rw [← List.nil_append τ, horder]
        simp
  | @log p p₁ s s₁ σ r x j hj hrun ih =>
      apply ih hτ
      intro i
      exact update_of (P := fun i => w.Ready (spec i)) hj (hready i) fun hlog => hlog
  | @ask p p₁ s s₁ σ q k j hj hrun ih =>
      have hnext : Serialized w spec results (w.reply q s).2 s₁ σ τ := by
        apply ih hτ
        intro i
        exact update_of (P := fun i => w.Ready (spec i)) hj (hready i) fun hask => hask.next s
      cases hq : w.counts q with
      | false =>
          have hproper : w.proper q := by
            have hask := (hready j).proper
            rw [hj] at hask
            exact hask.1
          have hview := hnext.congr hspec (w.view_other q s hproper hq)
          have horder : order w.counts ((j, q) :: σ ++ τ) = order w.counts (σ ++ τ) :=
            order_cons_of_other hq
          constructor
          · rw [horder]
            exact hview.view
          · rw [horder]
            exact hview.results
      | true =>
          have hask := hready j
          rw [hj] at hask
          rcases hask with hatomic | ⟨a, hsettled⟩
          · exact Run.serialized_ask hspec hq hatomic (hrun.append hτ) hend hnext
          · have hother := hsettled.1.2
            rw [hq] at hother
            cases hother

end Serial

/-- A run of programs that act at once, however it goes on to its end: each program has the result that
it has alone in its turn, the order being that of their last questions that count. What counts at any
time is what those leave behind that have asked for the last time by then. -/
theorem Run.serial {w : Shared Q R S V} {p p₁ p' : Pool Q R α ι} {s s₁ s' : S} {σ τ : List (ι × Q)}
    {results : ι → Except Payload α} (hσ : Run w.answer p s σ p₁ s₁)
    (hτ : Run w.answer p₁ s₁ τ p' s') (hend : ∀ i, p' i = .ofExcept (results i))
    (hp : ∀ i, w.ActsAtOnce (p i)) :
    let spec i := w.alone (p i)
    w.view s₁ = w.view (inTurn spec ((order w.counts (σ ++ τ)).filter (· ∉ callers w.counts τ)) s) ∧
      (∀ before i after, order w.counts (σ ++ τ) = before ++ i :: after →
        results i = (spec i (inTurn spec before s)).1) ∧
      ∀ i, i ∉ callers w.counts (σ ++ τ) → ∀ t, w.Same (spec i t) (results i, t) := by
  intro spec
  have hspec : ∀ i s s', w.view s = w.view s' → w.Same (spec i s) (spec i s') :=
    fun i s s' h => (hp i).proper.alone_congr h
  have hready : ∀ i, w.Ready (spec i) (p i) := fun i => Or.inl (hp i)
  have hall : Run w.answer p s (σ ++ τ) p' s' := hσ.append hτ
  refine ⟨(Run.serialized hspec hσ hτ hend hready).view, fun before i after horder => ?_,
    fun i hi t => ?_⟩
  · have hwhole := Run.serialized hspec hall (.refl p' s') hend hready
    refine hwhole.results before i after ?_ List.not_mem_nil
    rw [List.append_nil]
    exact horder
  · have hended := hall.atomic (hp i) hi
    rw [hend i] at hended
    exact hended.of_ended t

end Pool

end WebResource
