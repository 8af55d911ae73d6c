import WebResource.Json.Reader

namespace WebResource.Json

/-!
# Reading on

What the machine does with a text that it reads without a fault and without coming to the end of a
value. It can be stopped anywhere in such a text: what it misses then is only what more bytes could
bring.
-/

variable {s s' s₁ : State} {stack stack' stack₁ : List Frame} {b : UInt8} {bs cs : Bytes} {v : Json}

/-- A state in which a text that ends here is an integer, or lacks what more bytes could bring. -/
def Benign : State → Prop
  | .number negative n =>
    (∃ i, n.value negative = .ok (.int i)) ∨ ∃ f, n.value negative = .error f ∧ f.isEnd = true
  | _ => True

/-- Reading a text byte by byte, through benign states only. -/
inductive Passes : State → List Frame → Bytes → State → List Frame → Prop where
  | nil {s : State} {stack : List Frame} (h : Benign s) : Passes s stack [] s stack
  | cons {s s₁ s' : State} {stack stack₁ stack' : List Frame} {b : UInt8} {bs : Bytes}
      (h : Benign s) (hstep : step s stack b = .more s₁ stack₁) (hbs : Passes s₁ stack₁ bs s' stack') :
      Passes s stack (b :: bs) s' stack'

namespace Passes

theorem benign_left (h : Passes s stack bs s' stack') : Benign s := by
  cases h with
  | nil h => exact h
  | cons h hstep hbs => exact h

theorem benign_right (h : Passes s stack bs s' stack') : Benign s' := by
  induction h with
  | nil h => exact h
  | cons h hstep hbs ih => exact ih

theorem append (h : Passes s stack bs s₁ stack₁) (h' : Passes s₁ stack₁ cs s' stack') :
    Passes s stack (bs ++ cs) s' stack' := by
  induction h with
  | nil h => exact h'
  | cons h hstep hbs ih => exact .cons h hstep (ih h')

theorem split (h : Passes s stack (bs ++ cs) s' stack') :
    ∃ s₁ stack₁, Passes s stack bs s₁ stack₁ ∧ Passes s₁ stack₁ cs s' stack' := by
  induction bs generalizing s stack with
  | nil => exact ⟨s, stack, .nil h.benign_left, h⟩
  | cons b bs ih =>
      cases h with
      | cons hs hstep hbs =>
          obtain ⟨s₁, stack₁, hfirst, hrest⟩ := ih hbs
          exact ⟨s₁, stack₁, .cons hs hstep hfirst, hrest⟩

theorem one (hs : Benign s) (hstep : step s stack b = .more s' stack') (hs' : Benign s') :
    Passes s stack [b] s' stack' := .cons hs hstep (.nil hs')

theorem run (h : Passes s stack bs s' stack') (n : Nat) (cs : Bytes) :
    run s stack n (bs ++ cs) = Json.run s' stack' (n + bs.length) cs := by
  induction h generalizing n with
  | nil h => rfl
  | @cons s s₁ s' stack stack₁ stack' b bs h hstep hbs ih =>
      rw [List.cons_append, Json.run, hstep, List.length_cons]
      simp only
      rw [ih (n + 1)]
      congr 1
      omega

theorem run_ended (h : Passes s stack bs s' stack') (n : Nat) :
    Json.run s stack n bs = .ended s' stack' := by
  have hrun := h.run n []
  rw [List.append_nil] at hrun
  rw [hrun, Json.run]

end Passes

theorem isEnd_missing (s : State) (stack : List Frame) : (missing s stack).isEnd = true := by
  unfold missing
  split <;> try rfl
  split <;> rfl

theorem atEnd_of_benign (h : Benign s) (stack : List Frame) :
    (∃ i, atEnd s stack = .ok (.int i)) ∨ ∃ f, atEnd s stack = .error f ∧ f.isEnd = true := by
  cases s with
  | number negative n =>
      rcases h with ⟨i, hi⟩ | ⟨f, hf, hend⟩
      · simp only [atEnd, hi]
        split
        · exact Or.inl ⟨i, rfl⟩
        · exact Or.inr ⟨_, rfl, isEnd_missing _ _⟩
      · exact Or.inr ⟨f, by simp only [atEnd, hf], hend⟩
  | _ => exact Or.inr ⟨_, rfl, isEnd_missing _ _⟩

end WebResource.Json
