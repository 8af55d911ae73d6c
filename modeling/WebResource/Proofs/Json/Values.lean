import WebResource.Proofs.Json.Steps

namespace WebResource.Json

/-!
# What holds of values that are read

A value is put together of scalars, items and members. What holds of all scalars and is kept when a
container gets a part and when it is closed holds of every value that is read: that no value is nested
deeper than containers may be opened, and that a text which does not start as an array is none.
-/

variable {s : State} {stack : List Frame} {f : Frame} {b : UInt8} {bs rest : Bytes} {v w : Json} {n : Nat}
  {shown : Bool}

/-- A word that is being read has letters to come, and stands for no container. -/
def Spelled : State → Prop
  | .ident rest v => rest ≠ [] ∧ (∀ c ∈ rest, 0x61 ≤ c.toNat ∧ c.toNat ≤ 0x7A) ∧ v.depth = 0
  | _ => True

@[simp] theorem spelled_null : Spelled (.ident [0x75, 0x6C, 0x6C] .null) :=
  ⟨List.cons_ne_nil _ _, by simp, rfl⟩

@[simp] theorem spelled_true : Spelled (.ident [0x72, 0x75, 0x65] (.bool true)) :=
  ⟨List.cons_ne_nil _ _, by simp, rfl⟩

@[simp] theorem spelled_false : Spelled (.ident [0x61, 0x6C, 0x73, 0x65] (.bool false)) :=
  ⟨List.cons_ne_nil _ _, by simp, rfl⟩

theorem Spelled.next {c : UInt8} (h : Spelled (.ident (c :: rest) v)) (hrest : rest ≠ []) :
    Spelled (.ident rest v) :=
  ⟨hrest, fun d hd => h.2.1 d (List.mem_cons_of_mem c hd), h.2.2⟩

theorem depth_of_isNumber (h : v.isNumber = true) : v.depth = 0 := by
  cases v with
  | int i => rfl
  | float x => rfl
  | _ => cases h

theorem length_named (key : String) (stack : List Frame) : (named key stack).length = stack.length := by
  match stack with
  | [] => rfl
  | .arr _ :: _ => rfl
  | .obj _ _ :: _ => rfl

/-- What holds of values within `n` containers, and of containers within `n` others while they are open, so
that each part that is read keeps it. -/
structure Lawful (P : Json → Nat → Prop) (Q : Frame → Nat → Prop) : Prop where
  scalar : ∀ {v n}, depth v = 0 → n ≤ depthLimit → P v n
  opened : ∀ {n}, 0 < n → n < depthLimit → Q (.arr []) n ∧ Q (.obj [] "") n
  item : ∀ {items v n}, Q (.arr items) n → P v (n + 1) → Q (.arr (v :: items)) n
  member : ∀ {fields key v n}, Q (.obj fields key) n → P v (n + 1) → Q (.obj (insertField key v fields) key) n
  named : ∀ {fields key key' n}, Q (.obj fields key) n → Q (.obj fields key') n
  array : ∀ {items n}, Q (.arr items) n → P (.arr items.reverse) n
  object : ∀ {fields key n}, Q (.obj fields key) n → P (.obj fields) n

/-- All open containers are as they should be, and there are not too many. -/
def Framed (Q : Frame → Nat → Prop) : List Frame → Prop
  | [] => True
  | f :: stack => Q f stack.length ∧ stack.length < depthLimit ∧ Framed Q stack

/-- What a step brings is as it should be. -/
def Keeps (P : Json → Nat → Prop) (Q : Frame → Nat → Prop) : Step → Prop
  | .more s stack => Spelled s ∧ Framed Q stack
  | .done v => P v 0
  | .fault _ _ => True

namespace Lawful

variable {P : Json → Nat → Prop} {Q : Frame → Nat → Prop}

theorem length_le (h : Framed Q stack) : stack.length ≤ depthLimit := by
  cases stack with
  | nil => exact Nat.zero_le _
  | cons f stack => exact h.2.1

theorem deliver (hl : Lawful P Q) (h : Framed Q stack) (hv : P v stack.length) :
    Keeps P Q (deliver v stack) := by
  match stack with
  | [] => exact hv
  | .arr items :: stack => exact ⟨trivial, hl.item h.1 hv, h.2⟩
  | .obj fields key :: stack => exact ⟨trivial, hl.member h.1 hv, h.2⟩

theorem deliver_scalar (hl : Lawful P Q) (h : Framed Q stack) (hv : v.depth = 0) :
    Keeps P Q (Json.deliver v stack) := hl.deliver h (hl.scalar hv (length_le h))

theorem closeFrame (hl : Lawful P Q) (h : Framed Q stack) : Keeps P Q (closeFrame stack) := by
  match stack with
  | [] => trivial
  | .arr items :: stack => exact hl.deliver h.2.2 (hl.array h.1)
  | .obj fields key :: stack => exact hl.deliver h.2.2 (hl.object h.1)

theorem startValue (hl : Lawful P Q) (h : Framed Q (f :: stack)) (b : UInt8) :
    Keeps P Q (startValue (f :: stack) b) := by
  have hopen (hroom : (f :: stack).length < depthLimit) := hl.opened (Nat.succ_pos stack.length) hroom
  simp only [Json.startValue, openFrame]
  (repeat' split) <;> first
    | exact ⟨trivial, (hopen ‹_›).1, ‹_›, h⟩
    | exact ⟨trivial, (hopen ‹_›).2, ‹_›, h⟩
    | exact ⟨trivial, h⟩
    | exact ⟨by simp, h⟩
    | exact trivial

theorem stepAfter (hl : Lawful P Q) (h : Framed Q stack) (b : UInt8) : Keeps P Q (stepAfter stack b) := by
  simp only [Json.stepAfter, stepAfterItem, stepAfterMember]
  (repeat' split) <;> first | exact hl.closeFrame h | exact ⟨trivial, h⟩ | exact trivial

theorem framed_named (hl : Lawful P Q) (h : Framed Q stack) (key : String) :
    Framed Q (Json.named key stack) := by
  match stack with
  | [] => exact h
  | .arr _ :: _ => exact h
  | .obj _ _ :: _ => exact ⟨hl.named h.1, h.2⟩

theorem ident (hl : Lawful P Q) (h : Framed Q stack) (hs : Spelled (.ident rest v)) (b : UInt8) :
    Keeps P Q (step (.ident rest v) stack b) := by
  match rest with
  | [] => exact absurd rfl hs.1
  | [c] =>
      simp only [step]
      split
      · exact hl.deliver_scalar h hs.2.2
      · trivial
  | c :: d :: rest =>
      simp only [step]
      split
      · exact ⟨hs.next (List.cons_ne_nil d rest), h⟩
      · trivial

theorem number (hl : Lawful P Q) (h : Framed Q stack) (negative : Bool) (m : Numeral) (b : UInt8) :
    Keeps P Q (step (.number negative m) stack b) := by
  simp only [step]
  cases hm : m.step b with
  | more m' => exact ⟨trivial, h⟩
  | fault g => trivial
  | _ =>
      have hfinished := Numeral.finished_value negative (Numeral.hasValue_of_over hm)
      simp only
      generalize m.value negative = value at hfinished
      cases hfinished with
      | outOfRange => trivial
      | @number w hw =>
          have hdeliver := hl.deliver_scalar h (depth_of_isNumber hw)
          simp only
          cases hstep : Json.deliver w stack with
          | more s' stack' =>
              rw [hstep] at hdeliver
              exact hl.stepAfter hdeliver.2 b
          | done v =>
              rw [hstep] at hdeliver
              exact hdeliver
          | fault g back => trivial

theorem literal (r : LiteralStep) {more : Literal → Step} {done : String → Step}
    (hmore : ∀ l, Keeps P Q (more l)) (hdone : ∀ t, Keeps P Q (done t)) :
    Keeps P Q (stepLiteral r more done) := by
  cases r with
  | more l => exact hmore l
  | done t => exact hdone t
  | fault g back => trivial

theorem step (hl : Lawful P Q) (hwithin : Within shown s stack) (hs : Spelled s) (h : Framed Q stack)
    (b : UInt8) : Keeps P Q (step s stack b) := by
  cases s with
  | number negative m => exact hl.number h negative m b
  | ident rest v => exact hl.ident h hs b
  | text l => exact literal _ (fun _ => ⟨trivial, h⟩) fun _ => hl.deliver_scalar h rfl
  | keyText l => exact literal _ (fun _ => ⟨trivial, h⟩) fun t => ⟨trivial, hl.framed_named h t⟩
  | _ =>
      cases stack with
      | nil => exact hwithin.elim
      | cons f stack =>
          simp only [Json.step, stepAfterItem, stepAfterMember]
          (repeat' split) <;> first
            | exact hl.startValue h b
            | exact hl.closeFrame h
            | exact ⟨trivial, h⟩
            | exact trivial

theorem of_run (hl : Lawful P Q) (hwithin : Within shown s stack) (hs : Spelled s) (h : Framed Q stack)
    (hrun : run s stack n bs = .value v rest) : P v 0 := by
  induction bs generalizing s stack n with
  | nil => cases hrun
  | cons b bs ih =>
      have hkeeps := hl.step hwithin hs h b
      have hcontinues := continues_step hwithin b
      rw [run] at hrun
      cases hstep : Json.step s stack b with
      | more s' stack' =>
          rw [hstep] at hrun hkeeps hcontinues
          exact ih hcontinues hkeeps.1 hkeeps.2 hrun
      | fault g back =>
          rw [hstep] at hrun
          cases hrun
      | done w =>
          rw [hstep] at hrun hkeeps
          cases hrun
          exact hkeeps

/-- A value of which the first byte brings what it should. -/
theorem of_startValue (hl : Lawful P Q) (hfirst : Keeps P Q (Json.startValue [] b))
    (hrun : run .value [] n (b :: bs) = .value v rest) (hb : isBlankByte b = false) : P v 0 := by
  have hbegins := begins_startValue b
  rw [run] at hrun
  simp only [Json.step, hb, Bool.false_eq_true, if_false] at hrun
  cases hstart : Json.startValue [] b with
  | more s stack =>
      rw [hstart] at hrun hfirst hbegins
      exact hl.of_run hbegins hfirst.1 hfirst.2 hrun
  | done w =>
      rw [hstart] at hbegins
      exact hbegins.elim
  | fault g back =>
      rw [hstart] at hrun
      cases hrun

end Lawful

/-! ## Depth -/

theorem depthItems_le_iff {items : List Json} : depthItems items ≤ n ↔ ∀ v ∈ items, v.depth ≤ n := by
  induction items with
  | nil => simp [depthItems]
  | cons v items ih =>
      rw [depthItems, Nat.max_le, ih]
      simp

theorem depthItems_reverse (items : List Json) : depthItems items.reverse ≤ depthItems items := by
  rw [depthItems_le_iff]
  intro v hv
  exact depthItems_le_iff.mp (Nat.le_refl _) v (List.mem_reverse.mp hv)

theorem depthFields_insertField (key : String) (v : Json) (fields : Fields) :
    depthFields (insertField key v fields) ≤ max v.depth (depthFields fields) := by
  induction fields with
  | nil => simp [insertField, depthFields]
  | cons field fields ih =>
      obtain ⟨key', v'⟩ := field
      rw [insertField]
      split
      · simp only [depthFields]
        omega
      split
      · simp only [depthFields]
        omega
      · simp only [depthFields]
        omega

/-- How deep the parts of a container are. -/
def Frame.depth : Frame → Nat
  | .arr items => depthItems items
  | .obj fields _ => depthFields fields

/-- A value is nested no deeper than containers may be opened. -/
theorem lawful_depth :
    Lawful (fun v n => v.depth + n ≤ depthLimit) (fun f n => f.depth + n + 1 ≤ depthLimit) where
  scalar hv hn := by omega
  opened _ hn := by
    simp only [Frame.depth, depthItems, depthFields]
    omega
  item hitems hv := by
    simp only [Frame.depth, depthItems] at hitems ⊢
    omega
  member {fields key v n} hfields hv := by
    have hinsert := depthFields_insertField key v fields
    simp only [Frame.depth] at hfields ⊢
    omega
  named hfields := hfields
  array {items n} hitems := by
    have hreverse := depthItems_reverse items
    simp only [Frame.depth, depth] at hitems ⊢
    omega
  object hfields := by
    simp only [Frame.depth, depth] at hfields ⊢
    omega

theorem depth_of_run (hrun : run .value [] n bs = .value v rest) : v.depth ≤ depthLimit := by
  induction bs generalizing n with
  | nil => cases hrun
  | cons b bs ih =>
      cases hb : isBlankByte b with
      | true =>
          rw [run] at hrun
          simp only [step, hb, if_true] at hrun
          exact ih hrun
      | false =>
          refine lawful_depth.of_startValue ?_ hrun hb
          simp only [startValue, openFrame]
          (repeat' split) <;> first | exact trivial | exact ⟨trivial, trivial⟩ | exact ⟨by simp, trivial⟩ |
            exact ⟨trivial, by decide, by decide, trivial⟩

/-! ## Arrays -/

def isArray : Json → Bool
  | .arr _ => true
  | _ => false

def Frame.isArray : Frame → Bool
  | .arr _ => true
  | .obj _ _ => false

/-- The outermost container settles whether the value is an array. -/
theorem lawful_isArray :
    Lawful (fun v n => n = 0 → v.isArray = false) (fun f n => n = 0 → f.isArray = false) where
  scalar {v n} hv _ _ := by
    cases v with
    | arr items => cases hv
    | _ => rfl
  opened hpos _ := ⟨fun hn => absurd hn (Nat.ne_of_gt hpos), fun _ => rfl⟩
  item hitems _ := hitems
  member hfields _ := hfields
  named hfields := hfields
  array hitems := hitems
  object _ _ := rfl

theorem isArray_of_run (hb : b ≠ 0x5B) (hblank : isBlankByte b = false)
    (hrun : run .value [] n (b :: bs) = .value v rest) : v.isArray = false := by
  refine lawful_isArray.of_startValue ?_ hrun hblank rfl
  simp only [startValue, openFrame, hb, if_false]
  (repeat' split) <;> first | exact trivial | exact ⟨trivial, trivial⟩ | exact ⟨by simp, trivial⟩ |
    exact ⟨trivial, fun _ => rfl, by decide, trivial⟩

end WebResource.Json
