import WebResource.Proofs.Json.Reading

namespace WebResource.Json

/-!
# What a byte can bring

A fault that a byte shows is never one that more bytes could mend. Whether a value shows its own end
is settled by its first byte: strings and containers do, numbers and words do not.
-/

variable {s : State} {stack : List Frame} {b : UInt8} {v : Json} {f : Fault} {back : Nat}
  {negative shown : Bool} {n : Numeral}

/-! ## Numbers and strings -/

namespace Numeral

theorem isEnd_of_step (h : n.step b = .fault f) : f.isEnd = false := by
  cases n <;> cases hd : digit? b <;>
    simp only [step, hd, stepPoint, stepMark, stepPower] at h <;> (repeat' split at h) <;>
      cases h <;> rfl

/-- A number, or the one fault of a number that is complete. -/
inductive Finished : Except Fault Json → Prop where
  | number {v : Json} (h : v.isNumber = true) : Finished (.ok v)
  | outOfRange : Finished (.error .numberOutOfRange)

theorem finished_float (negative : Bool) (significand : Nat) (exponent : Int) :
    Finished (float negative significand exponent) := by
  rw [float]
  generalize ((Binary64.ofNat significand).bind fun f => f.timesTenPow exponent) = r
  cases r with
  | some x => exact .number rfl
  | none => exact .outOfRange

theorem finished_integer (negative : Bool) (significand : Nat) :
    Finished (integer negative significand) := by
  rw [integer]
  split
  · exact .number rfl
  split
  · exact .number rfl
  · exact finished_float true significand 0

/-- Whether a text that ends here is a number. -/
def hasValue : Numeral → Bool
  | .sign => false
  | .point _ _ => false
  | .mark _ _ => false
  | .markSign _ _ _ => false
  | _ => true

theorem finished_value (negative : Bool) (h : n.hasValue = true) : Finished (n.value negative) := by
  cases n with
  | zero => exact finished_integer negative 0
  | whole s => exact finished_integer negative s
  | longWhole s e => exact finished_float negative s e
  | part s e => exact finished_float negative s e
  | longPart s e => exact finished_float negative s e
  | power s e down p => exact finished_float negative s (if down then e - p else e + p)
  | vanished => exact finished_float negative 0 0
  | sign => cases h
  | point s e => cases h
  | mark s e => cases h
  | markSign s e down => cases h

theorem value_of_hasValue (h : n.hasValue = false) : n.value negative = .error .endInValue := by
  cases n with
  | sign => rfl
  | point s e => rfl
  | mark s e => rfl
  | markSign s e down => rfl
  | _ => cases h

theorem hasValue_of_over (h : n.step b = .over) : n.hasValue = true := by
  cases n with
  | sign => cases hd : digit? b with
    | none => simp [step, hd] at h
    | some d => cases d <;> simp [step, hd] at h
  | point _ _ => cases hd : digit? b <;> simp [step, hd] at h
  | mark _ _ =>
      cases hd : digit? b <;> simp only [step, hd] at h
      · (repeat' split at h) <;> cases h
      · cases h
  | markSign _ _ _ => cases hd : digit? b <;> simp [step, hd] at h
  | _ => rfl

end Numeral

theorem Literal.isEnd_of_step {l : Literal} (h : l.step b = .fault f back) : f.isEnd = false := by
  have hclose (h : l.close = .fault f back) : f.isEnd = false := by
    rw [close] at h
    split at h <;> cases h
    rfl
  have hhex {high : Option Nat} {unit : Nat} (h : l.closeHex high unit = .fault f back) :
      f.isEnd = false := by
    simp only [closeHex, go] at h
    (repeat' split at h) <;> cases h <;> rfl
  simp only [step, go] at h
  (repeat' split at h) <;> first | exact hclose h | exact hhex h | (cases h <;> rfl)

/-! ## Inside a container -/

/-- A step that leaves a container open, closes the last one, or shows a fault for good. -/
def Enclosed : Step → Prop
  | .more _ stack => stack ≠ []
  | .done v => v.isNumber = false
  | .fault f _ => f.isEnd = false

theorem enclosed_deliver (v : Json) (f : Frame) (stack : List Frame) :
    Enclosed (deliver v (f :: stack)) := by
  cases f <;> exact List.cons_ne_nil _ _

theorem enclosed_openFrame (stack : List Frame) (s : State) (f : Frame) :
    Enclosed (openFrame stack s f) := by
  rw [openFrame]
  split
  · exact List.cons_ne_nil _ _
  · rfl

theorem enclosed_startValue (f : Frame) (stack : List Frame) (b : UInt8) :
    Enclosed (startValue (f :: stack) b) := by
  simp only [startValue]
  (repeat' split) <;> first | exact enclosed_openFrame _ _ _ | exact List.cons_ne_nil _ _ | rfl

theorem enclosed_closeFrame (f : Frame) (stack : List Frame) :
    Enclosed (closeFrame (f :: stack)) := by
  cases stack with
  | nil => cases f <;> rfl
  | cons g stack => cases f <;> exact enclosed_deliver _ g stack

theorem enclosed_stepAfter (f : Frame) (stack : List Frame) (b : UInt8) :
    Enclosed (stepAfter (f :: stack) b) := by
  cases f <;> simp only [stepAfter, stepAfterItem, stepAfterMember] <;> (repeat' split) <;>
    first | exact enclosed_closeFrame _ _ | exact List.cons_ne_nil _ _ | rfl

theorem enclosed_stepLiteral {l : Literal} {more : Literal → Step} {done : String → Step}
    (hmore : ∀ l, Enclosed (more l)) (hdone : ∀ s, Enclosed (done s)) :
    Enclosed (stepLiteral (l.step b) more done) := by
  cases h : l.step b with
  | more l => exact hmore l
  | done s => exact hdone s
  | fault f back => exact Literal.isEnd_of_step h

theorem enclosed_number (f : Frame) (stack : List Frame) (b : UInt8) :
    Enclosed (step (.number negative n) (f :: stack) b) := by
  simp only [step]
  cases h : n.step b with
  | more n => exact List.cons_ne_nil _ _
  | fault f => exact Numeral.isEnd_of_step h
  | _ =>
      have hfinished := Numeral.finished_value negative (Numeral.hasValue_of_over h)
      generalize n.value negative = value at hfinished
      cases hfinished with
      | outOfRange => rfl
      | number hv => cases f <;> exact enclosed_stepAfter _ stack b

theorem enclosed_step (s : State) (f : Frame) (stack : List Frame) (b : UInt8) :
    Enclosed (step s (f :: stack) b) := by
  cases s with
  | number negative n => exact enclosed_number f stack b
  | text l => exact enclosed_stepLiteral (fun _ => List.cons_ne_nil _ _) fun _ => enclosed_deliver _ _ _
  | keyText l =>
      refine enclosed_stepLiteral (fun _ => List.cons_ne_nil _ _) fun _ => ?_
      cases f <;> exact List.cons_ne_nil _ _
  | ident rest v =>
      match rest with
      | [] => exact enclosed_deliver v f stack
      | [c] =>
          simp only [step]
          split
          · exact enclosed_deliver v f stack
          · rfl
      | c :: d :: rest =>
          simp only [step]
          split
          · exact List.cons_ne_nil _ _
          · rfl
  | _ =>
      simp only [step, stepAfterItem, stepAfterMember]
      (repeat' split) <;> first
        | exact enclosed_startValue f stack b
        | exact enclosed_closeFrame f stack
        | exact List.cons_ne_nil _ _
        | rfl

theorem step_word_ne_done (rest : Bytes) (w : Json) (f : Frame) (stack : List Frame) (b : UInt8) :
    step (.ident rest w) (f :: stack) b ≠ .done v := by
  have hdeliver : deliver w (f :: stack) ≠ .done v := by cases f <;> nofun
  match rest with
  | [] => exact hdeliver
  | [c] =>
      simp only [step]
      split
      · exact hdeliver
      · nofun
  | c :: d :: rest =>
      simp only [step]
      split <;> nofun

/-! ## A value by itself -/

/-- A state in which a word is read. -/
def isWord : State → Bool
  | .ident _ _ => true
  | _ => false

/-- Where the machine may be within a value by itself, which shows its own end or not. -/
def Within (shown : Bool) : State → List Frame → Prop
  | _, _ :: _ => shown = true
  | .text _, [] => shown = true
  | .number _ _, [] => shown = false
  | .ident _ v, [] => shown = false ∧ v.isNumber = false
  | _, [] => False

/-- What a byte brings within a value by itself. -/
def Continues (shown : Bool) (s : State) (stack : List Frame) : Step → Prop
  | .more s' stack' => Within shown s' stack'
  | .done v =>
    (endsBefore s stack = true ∧ shown = false) ∨
      (endsBefore s stack = false ∧ shown = !isWord s ∧ v.isNumber = false)
  | .fault f _ => f.isEnd = false

theorem continues_of_enclosed (hshown : shown = true) (f : Frame) (b : UInt8) :
    Continues shown s (f :: stack) (step s (f :: stack) b) := by
  have henclosed := enclosed_step s f stack b
  cases hstep : step s (f :: stack) b with
  | fault g back =>
      rw [hstep] at henclosed
      exact henclosed
  | more s' stack' =>
      rw [hstep] at henclosed
      cases stack' with
      | nil => exact absurd rfl henclosed
      | cons g stack' => exact hshown
  | done v =>
      rw [hstep] at henclosed
      refine Or.inr ⟨by cases s <;> rfl, ?_, henclosed⟩
      cases s with
      | ident rest w => exact absurd hstep (step_word_ne_done rest w f stack b)
      | _ => exact hshown

theorem continues_step (h : Within shown s stack) (b : UInt8) :
    Continues shown s stack (step s stack b) := by
  cases stack with
  | cons f stack => exact continues_of_enclosed h f b
  | nil =>
      cases s with
      | text l =>
          simp only [step]
          cases hl : l.step b with
          | more l => exact h
          | done t => exact Or.inr ⟨rfl, h, rfl⟩
          | fault f back => exact Literal.isEnd_of_step hl
      | number negative n =>
          simp only [step]
          cases hn : n.step b with
          | more n => exact h
          | fault f => exact Numeral.isEnd_of_step hn
          | _ =>
              have hfinished :=
                Numeral.finished_value negative (Numeral.hasValue_of_over hn)
              generalize n.value negative = value at hfinished
              cases hfinished with
              | outOfRange => rfl
              | number hv => exact Or.inl ⟨rfl, h⟩
      | ident rest v =>
          have hdone : Continues shown (.ident rest v) [] (.done v) := Or.inr ⟨rfl, h⟩
          match rest with
          | [] => exact hdone
          | [c] =>
              simp only [step]
              split
              · exact hdone
              · rfl
          | c :: d :: rest =>
              simp only [step]
              split
              · exact h
              · rfl
      | _ => exact h.elim

/-- What the first byte of a value brings. -/
def Begins (shown : Bool) : Step → Prop
  | .more s stack => Within shown s stack
  | .done _ => False
  | .fault f _ => f.isEnd = false

/-- The first byte of a value settles whether the value shows its own end. -/
theorem begins_startValue (b : UInt8) : Begins (isDelimited b) (startValue [] b) := by
  simp only [startValue, openFrame]
  (repeat' split) <;> simp_all [Begins, Within, isDelimited, isNumber, Fault.isEnd]

/-- What is known when a value by itself has ended or failed: with nothing behind it, it is no
number. -/
theorem ends_run (h : Within shown s stack) (n : Nat) (bs : Bytes) :
    match run s stack n bs with
    | .value v rest => rest = [] → v.isNumber = false
    | .fault f _ => f.isEnd = false
    | .ended _ _ => True := by
  induction bs generalizing s stack n with
  | nil => trivial
  | cons b bs ih =>
      have hcontinues := continues_step h b
      rw [run]
      cases hstep : step s stack b with
      | more s' stack' =>
          rw [hstep] at hcontinues
          exact ih hcontinues (n + 1)
      | fault f back =>
          rw [hstep] at hcontinues
          exact hcontinues
      | done w =>
          rw [hstep] at hcontinues
          rcases hcontinues with ⟨hends, -⟩ | ⟨hends, -, hnumber⟩
          · simp only [hends, if_true]
            exact fun hnil => absurd hnil (List.cons_ne_nil _ _)
          · exact fun _ => hnumber

end WebResource.Json
