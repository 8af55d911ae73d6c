import WebResource.Codec.Lists
import WebResource.Proofs.Json.Steps

namespace WebResource

/-!
# Lists byte by byte

A list read one byte at a time, without a buffer: the documents that have come and the place where
the reading stands follow from the bytes alone. So a text may be cut anywhere, and what a decoder
gives for its pieces can be told from the places at the cuts.
-/

/-- Where a reading of a list stands: between two documents, right behind a word to which nothing has
been added yet, or inside a document. -/
inductive ListPlace where
  | between (phase : ArrayPhase)
  | afterWord
  | inside (s : Json.State) (stack : List Json.Frame)

namespace ListPlace

/-- A place inside a number that is too large as far as it has been read. -/
def OutOfRange : ListPlace → Prop
  | .inside (.number negative n) _ => n.value negative = .error .numberOutOfRange
  | _ => False

end ListPlace

/-- Documents in front of what a reading gives. -/
def give (vs : List Json) (r : Option (List Json × ListPlace)) : Option (List Json × ListPlace) :=
  r.map fun (ws, p) => (vs ++ ws, p)

namespace ListFormat

open Json (isBlankByte isDelimiter skipBlanks State Frame)

/-- How a list goes on behind a document. -/
def behind : ListFormat → ArrayPhase
  | .array => .afterValue
  | .lines => .start

/-- The first byte of a document. -/
def opened (b : UInt8) : Option ListPlace :=
  match Json.startValue [] b with
  | .more s stack => some (.inside s stack)
  | _ => none

/-- A byte between two documents. -/
def stepBetween (format : ListFormat) (phase : ArrayPhase) (b : UInt8) : Option ListPlace :=
  if isBlankByte b then some (.between phase)
  else
    match format, phase with
    | .lines, _ => opened b
    | .array, .start => if b = 0x5B then some (.between .first) else none
    | .array, .first => if b = 0x5D then some (.between .done) else opened b
    | .array, .afterValue =>
      if b = 0x5D then some (.between .done)
      else if b = 0x2C then some (.between .beforeValue)
      else none
    | .array, .beforeValue => opened b
    | .array, .done => none

/-- The byte behind a document that does not show its own end. -/
def stepBehind (format : ListFormat) (b : UInt8) : Option ListPlace :=
  if isDelimiter b then format.stepBetween format.behind b else none

/-- Where a list stands right behind a document whose last byte was read in the state `s`. -/
def placeBehind (format : ListFormat) (s : State) : ListPlace :=
  if Json.isWord s then .afterWord else .between format.behind

/-- Reads one byte, which may bring a document. -/
def step (format : ListFormat) : ListPlace → UInt8 → Option (List Json × ListPlace)
  | .between phase, b => (format.stepBetween phase b).map ([], ·)
  | .afterWord, b => (format.stepBehind b).map ([], ·)
  | .inside s stack, b =>
    match Json.step s stack b with
    | .more s' stack' => some ([], .inside s' stack')
    | .fault _ _ => none
    | .done v =>
      if Json.endsBefore s stack then (format.stepBehind b).map ([v], ·)
      else some ([v], format.placeBehind s)

def scan (format : ListFormat) : ListPlace → Bytes → Option (List Json × ListPlace)
  | p, [] => some ([], p)
  | p, b :: bs => (format.step p b).bind fun x => give x.1 (scan format x.2 bs)

/-- The documents that are still to come when the text ends, if it may end there. -/
def finish : ListFormat → ListPlace → Option (List Json)
  | .array, .between .done => some []
  | .array, _ => none
  | .lines, .inside s stack => (Json.atEnd s stack).toOption.map ([·])
  | .lines, _ => some []

/-- The documents of a text that comes as a whole. -/
def complete (format : ListFormat) (p : ListPlace) (bs : Bytes) : Option (List Json) :=
  (format.scan p bs).bind fun x => (format.finish x.2).map (x.1 ++ ·)

/-- The place that a decoder takes once it has been drained: nothing is behind a word any more. -/
def settled (format : ListFormat) : ListPlace → ListPlace
  | .afterWord => .between format.behind
  | p => p

variable {format : ListFormat} {phase : ArrayPhase} {p q : ListPlace} {b : UInt8}
  {as bs rest : Bytes} {v : Json} {vs ws : List Json} {r : Option (List Json × ListPlace)}

/-! ## Longer texts -/

@[simp] theorem give_nil (r : Option (List Json × ListPlace)) : give [] r = r := by
  cases r <;> rfl

theorem give_give (vs ws : List Json) (r : Option (List Json × ListPlace)) :
    give vs (give ws r) = give (vs ++ ws) r := by
  cases r with
  | none => rfl
  | some x => simp [give]

theorem give_bind (vs : List Json) (r : Option (List Json × ListPlace))
    (f : ListPlace → Option (List Json × ListPlace)) :
    ((give vs r).bind fun x => give x.1 (f x.2)) = give vs (r.bind fun x => give x.1 (f x.2)) := by
  cases r with
  | none => rfl
  | some x => exact (give_give vs x.1 (f x.2)).symm

theorem scan_append (format : ListFormat) (p : ListPlace) (as bs : Bytes) :
    format.scan p (as ++ bs) = (format.scan p as).bind fun x => give x.1 (format.scan x.2 bs) := by
  induction as generalizing p with
  | nil => exact (give_nil _).symm
  | cons a as ih =>
      rw [List.cons_append, scan, scan]
      cases format.step p a with
      | none => rfl
      | some x =>
          have hbind := give_bind x.1 (format.scan x.2 as) fun q => format.scan q bs
          exact (congrArg (give x.1) (ih x.2)).trans hbind.symm

theorem scan_append_of (h : format.scan p as = some (vs, q)) (bs : Bytes) :
    format.scan p (as ++ bs) = give vs (format.scan q bs) := by
  rw [scan_append, h]
  rfl

/-- The documents that a text brings stand in front of those of the text behind it. -/
theorem complete_of_scan (h : format.scan p as = give vs (format.scan q bs)) :
    format.complete p as = (format.complete q bs).map (vs ++ ·) := by
  rw [complete, complete, h]
  cases format.scan q bs with
  | none => rfl
  | some x =>
      simp only [give, Option.map_some, Option.bind_some, Option.map_map]
      congr 1
      funext ws
      exact List.append_assoc vs x.1 ws

theorem complete_append (h : format.scan p as = some (vs, q)) (bs : Bytes) :
    format.complete p (as ++ bs) = (format.complete q bs).map (vs ++ ·) :=
  complete_of_scan (scan_append_of h bs)

theorem complete_of_scan_none (h : format.scan p as = none) (bs : Bytes) :
    format.complete p (as ++ bs) = none := by
  rw [complete, scan_append, h]
  rfl

theorem complete_nil (format : ListFormat) (p : ListPlace) :
    format.complete p [] = format.finish p := by
  simp [complete, scan]

/-! ## Settled places -/

theorem settled_settled (format : ListFormat) (q : ListPlace) :
    format.settled (format.settled q) = format.settled q := by
  cases q <;> rfl

theorem outOfRange_settled : (format.settled q).OutOfRange ↔ q.OutOfRange := by
  cases q <;> rfl

theorem finish_settled (format : ListFormat) (q : ListPlace) :
    format.finish (format.settled q) = format.finish q := by
  cases format <;> cases q <;> rfl

/-! ## Blanks -/

theorem scan_between_blank (h : isBlankByte b = true) :
    format.scan (.between phase) (b :: bs) = format.scan (.between phase) bs := by
  simp [scan, step, stepBetween, h]

theorem scan_skipBlanks (format : ListFormat) (phase : ArrayPhase) (bs : Bytes) :
    format.scan (.between phase) (skipBlanks bs) = format.scan (.between phase) bs := by
  induction bs with
  | nil => rfl
  | cons b bs ih =>
      cases h : isBlankByte b with
      | true =>
          rw [scan_between_blank h, ← ih, skipBlanks, List.dropWhile_cons_of_pos h]
          rfl
      | false => rw [skipBlanks, List.dropWhile_cons_of_neg (by simp [h])]

theorem isBlankByte_of_skipBlanks (h : skipBlanks bs = b :: rest) : isBlankByte b = false := by
  have hhead := List.head?_dropWhile_not isBlankByte bs
  rw [← skipBlanks, h] at hhead
  simpa using hhead

theorem scan_between (format : ListFormat) (phase : ArrayPhase) (b : UInt8) (bs : Bytes) :
    format.scan (.between phase) (b :: bs) =
      (format.stepBetween phase b).bind fun p => format.scan p bs := by
  rw [scan, step]
  cases format.stepBetween phase b with
  | none => rfl
  | some p => exact give_nil _

/-! ## A document -/

theorem scan_afterWord (format : ListFormat) (b : UInt8) (bs : Bytes) :
    format.scan .afterWord (b :: bs) =
      if isDelimiter b then format.scan (.between format.behind) (b :: bs) else none := by
  simp only [scan, step, stepBehind]
  split <;> rfl

/-- The reading of a text that starts with a document. -/
def document (format : ListFormat) : Bytes → Option (List Json × ListPlace)
  | [] => none
  | b :: bs => (opened b).bind fun p => format.scan p bs

/-- A list within a document goes where the machine goes that reads the document by itself. -/
theorem scan_inside {shown : Bool} {s : State} {stack : List Frame}
    (h : Json.Within shown s stack) (bs : Bytes) (n : Nat) :
    format.scan (.inside s stack) bs =
      match Json.run s stack n bs with
      | .value v rest =>
        give [v] (format.scan (if shown then .between format.behind else .afterWord) rest)
      | .ended s' stack' => some ([], .inside s' stack')
      | .fault _ _ => none := by
  induction bs generalizing s stack n with
  | nil => rfl
  | cons b bs ih =>
      have hcontinues := Json.continues_step h b
      rw [scan, Json.run]
      cases hstep : Json.step s stack b with
      | more s' stack' =>
          rw [hstep] at hcontinues
          simp only [step, hstep, Option.bind_some, give_nil]
          exact ih hcontinues (n + 1)
      | fault f back => simp [step, hstep]
      | done v =>
          rw [hstep] at hcontinues
          rcases hcontinues with ⟨hends, rfl⟩ | ⟨hends, hshown, -⟩
          · -- The byte behind a number has been read, but belongs to the list.
            simp only [step, hstep, hends, if_true, scan, Bool.false_eq_true, if_false]
            cases format.stepBehind b with
            | none => rfl
            | some q => simp [give_nil]
          · simp only [step, hstep, hends, Bool.false_eq_true, if_false, Option.bind_some,
              placeBehind, hshown]
            cases Json.isWord s <;> rfl

end ListFormat

end WebResource
