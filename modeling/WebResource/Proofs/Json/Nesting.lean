import WebResource.Proofs.Json.Values

namespace WebResource.Json

/-!
# How deep a text nests

How many containers are open at a place of a text shows from its brackets alone, those in strings passed
over. The stack of the machine is as high.
-/

/-- Where a text stands as far as strings go. Behind the first letter of a long escape as many digits
follow. -/
inductive Quoting where
  | outside
  | quoted
  | escaped
  | digits (more : Nat)
  deriving DecidableEq, Repr

/-- What the brackets of a text tell: whether it stands in a string, and how many containers are open. -/
structure Brackets where
  quoting : Quoting
  opened : Nat
  deriving DecidableEq, Repr

namespace Brackets

def read (x : Brackets) (b : UInt8) : Brackets :=
  match x.quoting with
  | .outside =>
    if b = 0x22 then ⟨.quoted, x.opened⟩
    else if b = 0x5B ∨ b = 0x7B then ⟨.outside, x.opened + 1⟩
    else if b = 0x5D ∨ b = 0x7D then ⟨.outside, x.opened - 1⟩
    else x
  | .quoted =>
    if b = 0x22 then ⟨.outside, x.opened⟩
    else if b = 0x5C then ⟨.escaped, x.opened⟩
    else x
  | .escaped => ⟨if b = 0x75 then .digits 3 else .quoted, x.opened⟩
  | .digits 0 => ⟨.quoted, x.opened⟩
  | .digits (more + 1) => ⟨.digits more, x.opened⟩

/-- The most containers that are open at once in the rest of a text. -/
def most (x : Brackets) : Bytes → Nat
  | [] => x.opened
  | b :: bs => max x.opened ((x.read b).most bs)

end Brackets

/-- The most containers that are open at once in a text. -/
def nesting (bs : Bytes) : Nat := Brackets.most ⟨.outside, 0⟩ bs

variable {s : State} {stack : List Frame} {f : Frame} {b c : UInt8} {bs rest : Bytes} {v : Json} {n k : Nat}
  {shown negative : Bool}

/-! ## Strings -/

def Literal.quoting (l : Literal) : Quoting :=
  match l.escape with
  | .none => .quoted
  | .opened => .escaped
  | .hex seen _ => .digits (3 - seen.length)
  | .wantSlash _ => .quoted
  | .wantU _ => .escaped

def State.quoting : State → Quoting
  | .keyText l => l.quoting
  | .text l => l.quoting
  | _ => .outside

/-- What a byte of a string brings, as the brackets show it. -/
def Quotes (k : Nat) (x : Brackets) : LiteralStep → Prop
  | .more l => x = ⟨l.quoting, k⟩
  | .done _ => x = ⟨.outside, k⟩
  | .fault _ _ => True

theorem quotes_close (l : Literal) (k : Nat) : Quotes k ⟨.outside, k⟩ l.close := by
  rw [Literal.close]
  split
  · rfl
  · trivial

theorem quotes_closeHex (l : Literal) (high : Option Nat) (unit k : Nat) :
    Quotes k ⟨.quoted, k⟩ (l.closeHex high unit) := by
  simp only [Literal.closeHex]
  (repeat' split) <;> first | rfl | trivial

theorem quotes_step (l : Literal) (b : UInt8) (k : Nat) :
    Quotes k (Brackets.read ⟨l.quoting, k⟩ b) (l.step b) := by
  obtain ⟨content, escape⟩ := l
  cases escape with
  | none =>
      simp only [Literal.step, Literal.quoting, Brackets.read]
      split
      · exact quotes_close _ k
      split
      · rfl
      split
      · trivial
      · rfl
  | opened =>
      simp only [Literal.step, Literal.quoting, Brackets.read]
      split
      · rfl
      cases Literal.escaped? b with
      | none => trivial
      | some c => rfl
  | hex seen high =>
      simp only [Literal.step, Literal.quoting]
      split
      · next hshort =>
          obtain ⟨more, hmore⟩ : ∃ more, 3 - seen.length = more + 1 := ⟨2 - seen.length, by omega⟩
          have hnext : 3 - (seen ++ [b]).length = more := by
            rw [List.length_append, List.length_singleton]
            omega
          simp only [hmore, Brackets.read, Literal.go, Quotes, Literal.quoting, hnext]
      · next hlong =>
          have hlast : 3 - seen.length = 0 := by omega
          simp only [hlast, Brackets.read]
          cases Literal.hexValue (seen ++ [b]) with
          | none => trivial
          | some unit => exact quotes_closeHex _ high unit k
  | wantSlash high =>
      by_cases hslash : b = 0x5C
      · subst hslash
        rfl
      · simp only [Literal.step, hslash, if_false]
        trivial
  | wantU high =>
      simp only [Literal.step, Literal.quoting, Brackets.read]
      split
      · rfl
      · trivial

/-! ## Words and numbers -/

/-- A byte that is no bracket and no quote. -/
def Plain (b : UInt8) : Prop := ∀ k, Brackets.read ⟨.outside, k⟩ b = ⟨.outside, k⟩

theorem plain_of_ne (h : b ≠ 0x22 ∧ b ≠ 0x5B ∧ b ≠ 0x7B ∧ b ≠ 0x5D ∧ b ≠ 0x7D) : Plain b := by
  obtain ⟨hquote, harr, hobj, harr', hobj'⟩ := h
  intro k
  simp [Brackets.read, hquote, harr, hobj, harr', hobj']

theorem plain_of_isBlankByte (h : isBlankByte b = true) : Plain b := by
  apply plain_of_ne
  refine ⟨?_, ?_, ?_, ?_, ?_⟩ <;> rintro rfl <;> cases h

theorem plain_of_letter (h : 0x61 ≤ b.toNat ∧ b.toNat ≤ 0x7A) : Plain b := by
  apply plain_of_ne
  refine ⟨?_, ?_, ?_, ?_, ?_⟩ <;> rintro rfl <;> revert h <;> decide

theorem Numeral.plain_of_more {n n' : Numeral} (h : n.step b = .more n') : Plain b := by
  apply plain_of_ne
  refine ⟨?_, ?_, ?_, ?_, ?_⟩ <;> rintro rfl <;> cases n <;> cases h

/-! ## The stack -/

/-- What a byte brings where `k` containers are open around a value, as the brackets show it. A value that
ends before the byte has nothing to do with it. -/
def Marked (k : Nat) (x : Brackets) (before : Bool) : Step → Prop
  | .more s stack => x = ⟨s.quoting, k + stack.length⟩ ∧ Spelled s
  | .done _ => before = false → x = ⟨.outside, k⟩
  | .fault _ _ => True

variable {before : Bool}

theorem marked_deliver (v : Json) (stack : List Frame) :
    Marked k ⟨.outside, k + stack.length⟩ before (deliver v stack) := by
  match stack with
  | [] => exact fun _ => rfl
  | .arr _ :: _ => exact ⟨rfl, trivial⟩
  | .obj _ _ :: _ => exact ⟨rfl, trivial⟩

theorem marked_closeFrame (f : Frame) (stack : List Frame) :
    Marked k ⟨.outside, k + stack.length⟩ before (closeFrame (f :: stack)) := by
  cases f <;> exact marked_deliver _ stack

theorem marked_openFrame (hs : s.quoting = .outside ∧ Spelled s) (f : Frame) (stack : List Frame) :
    Marked k ⟨.outside, k + stack.length + 1⟩ before (openFrame stack s f) := by
  rw [openFrame]
  split
  · exact ⟨by rw [hs.1]; rfl, hs.2⟩
  · trivial

theorem marked_startValue (stack : List Frame) (b : UInt8) :
    Marked k (Brackets.read ⟨.outside, k + stack.length⟩ b) before (startValue stack b) := by
  by_cases hquote : b = 0x22
  · subst hquote
    exact ⟨rfl, trivial⟩
  by_cases harr : b = 0x5B
  · subst harr
    exact marked_openFrame (s := .itemOrEnd) ⟨rfl, trivial⟩ _ stack
  by_cases hobj : b = 0x7B
  · subst hobj
    exact marked_openFrame (s := .keyOrEnd) ⟨rfl, trivial⟩ _ stack
  by_cases hclose : b = 0x5D ∨ b = 0x7D
  · rcases hclose with rfl | rfl <;> trivial
  obtain ⟨harr', hobj'⟩ := not_or.mp hclose
  have hplain : Plain b := plain_of_ne ⟨hquote, harr, hobj, harr', hobj'⟩
  rw [hplain]
  simp only [startValue, hquote, harr, hobj, if_false]
  (repeat' split) <;> first | exact trivial | exact ⟨rfl, trivial⟩ | exact ⟨rfl, by simp⟩

/-- A byte that is neither bracket nor quote leads to a state outside of strings. -/
theorem marked_plain (hb : Plain b) (s : State) (hs : s.quoting = .outside ∧ Spelled s)
    (stack : List Frame) :
    Marked k (Brackets.read ⟨.outside, k + stack.length⟩ b) before (.more s stack) :=
  ⟨by rw [hb, hs.1], hs.2⟩

theorem plain_comma : Plain 0x2C := plain_of_ne (by decide)

theorem marked_stepAfterItem (f : Frame) (stack : List Frame) (b : UInt8) :
    Marked k (Brackets.read ⟨.outside, k + (f :: stack).length⟩ b) before (stepAfterItem (f :: stack) b) := by
  rw [stepAfterItem]
  split
  · next hclose =>
      subst hclose
      exact marked_closeFrame f stack
  split
  · next hcomma => exact marked_plain (hcomma ▸ plain_comma) .item ⟨rfl, trivial⟩ _
  · trivial

theorem marked_stepAfterMember (f : Frame) (stack : List Frame) (b : UInt8) :
    Marked k (Brackets.read ⟨.outside, k + (f :: stack).length⟩ b) before
      (stepAfterMember (f :: stack) b) := by
  rw [stepAfterMember]
  split
  · next hclose =>
      subst hclose
      exact marked_closeFrame f stack
  split
  · next hcomma => exact marked_plain (hcomma ▸ plain_comma) .key ⟨rfl, trivial⟩ _
  · trivial

theorem marked_stepAfter (f : Frame) (stack : List Frame) (b : UInt8) :
    Marked k (Brackets.read ⟨.outside, k + (f :: stack).length⟩ b) before (stepAfter (f :: stack) b) := by
  cases f with
  | arr items =>
      simp only [stepAfter]
      split
      · next hblank => exact marked_plain (plain_of_isBlankByte hblank) .afterItem ⟨rfl, trivial⟩ _
      · exact marked_stepAfterItem _ stack b
  | obj fields key =>
      simp only [stepAfter]
      split
      · next hblank => exact marked_plain (plain_of_isBlankByte hblank) .afterMember ⟨rfl, trivial⟩ _
      · exact marked_stepAfterMember _ stack b

/-- A byte in front of a value, where a closing bracket leads elsewhere. -/
theorem marked_value (s : State) (hs : s.quoting = .outside ∧ Spelled s) (f : Frame) (stack : List Frame)
    (b : UInt8) {r : Step} (hclose : Marked k ⟨.outside, k + stack.length⟩ before r) :
    Marked k (Brackets.read ⟨.outside, k + (f :: stack).length⟩ b) before
      (if isBlankByte b then .more s (f :: stack)
      else if b = 0x5D then r
      else startValue (f :: stack) b) := by
  split
  · next hblank => exact marked_plain (plain_of_isBlankByte hblank) s hs _
  split
  · next hbracket =>
      subst hbracket
      exact hclose
  · exact marked_startValue _ b

/-- A byte in front of a name, where a closing brace leads elsewhere. -/
theorem marked_key (s : State) (hs : s.quoting = .outside ∧ Spelled s) (f : Frame) (stack : List Frame)
    (b : UInt8) {r : Step} (hclose : Marked k ⟨.outside, k + stack.length⟩ before r) :
    Marked k (Brackets.read ⟨.outside, k + (f :: stack).length⟩ b) before
      (if isBlankByte b then .more s (f :: stack)
      else if b = 0x7D then r
      else if b = 0x22 then .more (.keyText .empty) (f :: stack)
      else .fault .keyNotString 0) := by
  split
  · next hblank => exact marked_plain (plain_of_isBlankByte hblank) s hs _
  split
  · next hbrace =>
      subst hbrace
      exact hclose
  split
  · next hquote =>
      subst hquote
      exact ⟨rfl, trivial⟩
  · trivial

theorem marked_ident {w : Json} (hs : Spelled (.ident rest w)) (stack : List Frame) (b : UInt8) :
    Marked k (Brackets.read ⟨.outside, k + stack.length⟩ b) before (step (.ident rest w) stack b) := by
  match rest with
  | [] => exact absurd rfl hs.1
  | [c] =>
      simp only [step]
      split
      · next hc =>
          subst hc
          rw [plain_of_letter (hs.2.1 b List.mem_cons_self)]
          exact marked_deliver w stack
      · trivial
  | c :: d :: rest =>
      simp only [step]
      split
      · next hc =>
          subst hc
          have hplain := plain_of_letter (hs.2.1 b List.mem_cons_self)
          exact marked_plain hplain (.ident (d :: rest) w) ⟨rfl, hs.next (List.cons_ne_nil d rest)⟩ stack
      · trivial

theorem marked_number {m : Numeral} (stack : List Frame) (b : UInt8) :
    Marked k (Brackets.read ⟨.outside, k + stack.length⟩ b) (endsBefore (.number negative m) stack)
      (step (.number negative m) stack b) := by
  simp only [step]
  cases hm : m.step b with
  | more m' => exact marked_plain (Numeral.plain_of_more hm) (.number negative m') ⟨rfl, trivial⟩ stack
  | fault g => trivial
  | _ =>
      simp only
      cases m.value negative with
      | error g => trivial
      | ok w =>
          match stack with
          | [] => exact fun hbefore => nomatch hbefore
          | .arr items :: stack => exact marked_stepAfter _ stack b
          | .obj fields key :: stack => exact marked_stepAfter _ stack b

theorem marked_literal {more : Literal → Step} {done : String → Step} (l : Literal) (stack : List Frame)
    (b : UInt8) (hmore : ∀ l, Marked k ⟨l.quoting, k + stack.length⟩ before (more l))
    (hdone : ∀ t, Marked k ⟨.outside, k + stack.length⟩ before (done t)) :
    Marked k (Brackets.read ⟨l.quoting, k + stack.length⟩ b) before (stepLiteral (l.step b) more done) := by
  have hquotes := quotes_step l b (k + stack.length)
  cases hl : l.step b with
  | more l' =>
      rw [hl] at hquotes
      rw [hquotes]
      exact hmore l'
  | done t =>
      rw [hl] at hquotes
      rw [hquotes]
      exact hdone t
  | fault g back => trivial

theorem marked_text (l : Literal) (stack : List Frame) (b : UInt8) :
    Marked k (Brackets.read ⟨l.quoting, k + stack.length⟩ b) before (step (.text l) stack b) :=
  marked_literal l stack b (fun _ => ⟨rfl, trivial⟩) fun t => marked_deliver (.str t) stack

theorem marked_keyText (l : Literal) (stack : List Frame) (b : UInt8) :
    Marked k (Brackets.read ⟨l.quoting, k + stack.length⟩ b) before (step (.keyText l) stack b) := by
  apply marked_literal l stack b
  · exact fun _ => ⟨rfl, trivial⟩
  · intro t
    refine ⟨?_, trivial⟩
    rw [length_named]
    rfl

theorem marked_enclosed (hs : Spelled s) (f : Frame) (stack : List Frame) (b : UInt8) :
    Marked k (Brackets.read ⟨s.quoting, k + (f :: stack).length⟩ b) (endsBefore s (f :: stack))
      (step s (f :: stack) b) := by
  have hfault {g : Fault} {x : Brackets} {before : Bool} : Marked k x before (.fault g 0) := trivial
  cases s with
  | number negative m => exact marked_number (f :: stack) b
  | ident rest w => exact marked_ident hs (f :: stack) b
  | text l => exact marked_text l (f :: stack) b
  | keyText l => exact marked_keyText l (f :: stack) b
  | itemOrEnd => exact marked_value .itemOrEnd ⟨rfl, trivial⟩ f stack b (marked_closeFrame f stack)
  | item => exact marked_value .item ⟨rfl, trivial⟩ f stack b hfault
  | keyOrEnd => exact marked_key .keyOrEnd ⟨rfl, trivial⟩ f stack b (marked_closeFrame f stack)
  | key => exact marked_key .key ⟨rfl, trivial⟩ f stack b hfault
  | value =>
      simp only [step]
      split
      · next hblank => exact marked_plain (plain_of_isBlankByte hblank) .value ⟨rfl, trivial⟩ _
      · exact marked_startValue _ b
  | afterItem =>
      simp only [step]
      split
      · next hblank => exact marked_plain (plain_of_isBlankByte hblank) .afterItem ⟨rfl, trivial⟩ _
      · exact marked_stepAfterItem f stack b
  | afterMember =>
      simp only [step]
      split
      · next hblank => exact marked_plain (plain_of_isBlankByte hblank) .afterMember ⟨rfl, trivial⟩ _
      · exact marked_stepAfterMember f stack b
  | colon =>
      simp only [step]
      split
      · next hblank => exact marked_plain (plain_of_isBlankByte hblank) .colon ⟨rfl, trivial⟩ _
      split
      · next hcolon => exact marked_plain (hcolon ▸ plain_of_ne (by decide)) .value ⟨rfl, trivial⟩ _
      · trivial

/-- The stack follows the brackets. -/
theorem marked_step (h : Within shown s stack) (hs : Spelled s) (b : UInt8) :
    Marked k (Brackets.read ⟨s.quoting, k + stack.length⟩ b) (endsBefore s stack) (step s stack b) := by
  cases stack with
  | cons f stack => exact marked_enclosed hs f stack b
  | nil =>
      cases s with
      | number negative m => exact marked_number [] b
      | ident rest w => exact marked_ident hs [] b
      | text l => exact marked_text l [] b
      | _ => exact h.elim

end WebResource.Json
