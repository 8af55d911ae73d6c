import WebResource.Proofs.Interleaving.Runs

namespace WebResource.Pool

/-!
# Invariants of interleaved runs

What no allowed step takes from the state holds after every run of programs that take only allowed steps.
A run may be played by a schedule that says who takes the next step.
-/

variable {Q S α ι : Type} {R : Q → Type} {answer : (q : Q) → Act S (R q)}

/-- A condition on each step of a run, and on the state in which it is taken. -/
inductive Along (answer : (q : Q) → Act S (R q)) (cond : S → Q → Prop) : S → List (ι × Q) → Prop where
  | nil (s : S) : Along answer cond s []
  | cons {s : S} {i : ι} {q : Q} {σ : List (ι × Q)} (hq : cond s q)
      (h : Along answer cond (Act.outcome (answer q) s).2 σ) : Along answer cond s ((i, q) :: σ)

theorem along_cons_iff {cond : S → Q → Prop} {s : S} {i : ι} {q : Q} {σ : List (ι × Q)} :
    Along answer cond s ((i, q) :: σ) ↔
      cond s q ∧ Along answer cond (Act.outcome (answer q) s).2 σ := by
  refine ⟨fun h => ?_, fun h => .cons h.1 h.2⟩
  cases h with
  | cons hq h => exact ⟨hq, h⟩

instance Along.decidable {cond : S → Q → Prop} [hcond : ∀ s q, Decidable (cond s q)] :
    (s : S) → (σ : List (ι × Q)) → Decidable (Along answer cond s σ)
  | s, [] => .isTrue (.nil s)
  | s, (_, q) :: σ =>
    @decidable_of_iff' _ _ along_cons_iff (@instDecidableAnd _ _ (hcond s q) (Along.decidable _ σ))

variable [DecidableEq ι] {p p' : Pool Q R α ι} {s s' : S} {σ : List (ι × Q)}

/-- The induction is on the run: what the programs may still ask stays allowed. -/
theorem Run.invariant_along {allowed : Q → Prop} {cond : S → Q → Prop} {inv : S → Prop}
    (hstep : ∀ q s, allowed q → cond s q → inv s → inv (Act.outcome (answer q) s).2)
    (hrun : Run answer p s σ p' s') (hp : ∀ i, Prog.Asks allowed (p i))
    (hσ : Along answer cond s σ) (hs : inv s) : inv s' := by
  induction hrun with
  | refl p s => exact hs
  | @log p p' s s' σ r x j hj hrun ih =>
      refine ih (fun i => ?_) hσ hs
      refine update_of (P := fun _ => Prog.Asks allowed) hj (hp i) fun hlog => ?_
      cases hlog with
      | log r hx => exact hx
  | @ask p p' s s' σ q k j hj hrun ih =>
      have hq : allowed q := (hj ▸ hp j).of_ask.1
      obtain ⟨hcond, hσ⟩ := along_cons_iff.mp hσ
      refine ih (fun i => ?_) hσ (hstep q s hq hcond hs)
      exact update_of (P := fun _ => Prog.Asks allowed) hj (hp i) fun hask => hask.of_ask.2 _

/-! ## Schedules -/

/-- The program behind the log records that it writes first. -/
def skipLogs : Prog Q R α → Prog Q R α
  | .log _ x => skipLogs x
  | x => x

/-- The run in which the programs take turns as a list says, up to the next question each time. -/
def play (answer : (q : Q) → Act S (R q)) :
    List ι → Pool Q R α ι → S → List (ι × Q) × Pool Q R α ι × S
  | [], p, s => ([], p, s)
  | i :: is, p, s =>
    match skipLogs (p i) with
    | .ask q k =>
      let o := Act.outcome (answer q) s
      let (σ, rest) := play answer is (Function.update p i (k o.1)) o.2
      ((i, q) :: σ, rest)
    | x => play answer is (Function.update p i x) s

theorem run_skipLogs (i : ι) {p : Pool Q R α ι} {x : Prog Q R α}
    (hrun : Run answer (Function.update p i (skipLogs x)) s σ p' s') :
    Run answer (Function.update p i x) s σ p' s' := by
  induction x with
  | done a => exact hrun
  | panic e => exact hrun
  | ask q k ih => exact hrun
  | log r x ih =>
      refine .log i (Function.update_self ..) ?_
      rw [Function.update_idem]
      exact ih hrun

theorem run_play (answer : (q : Q) → Act S (R q)) (is : List ι) (p : Pool Q R α ι) (s : S) :
    Run answer p s (play answer is p s).1 (play answer is p s).2.1 (play answer is p s).2.2 := by
  induction is generalizing p s with
  | nil => exact .refl p s
  | cons i is ih =>
      rw [← Function.update_eq_self i p]
      apply run_skipLogs
      rw [play, Function.update_self]
      split
      · next q k hask =>
          rw [hask]
          refine .ask i (Function.update_self ..) ?_
          simp only [Function.update_idem]
          exact ih _ _
      · next x hx =>
          simp only [Function.update_idem]
          exact ih _ _

end WebResource.Pool
