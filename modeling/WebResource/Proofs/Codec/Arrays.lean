import WebResource.Codec.Basic
import WebResource.Proofs.Codec.Cutting
import WebResource.Proofs.Json.Nesting

namespace WebResource

/-!
# Arrays one item at a time

A text is read as one document, an array, if and only if it is read as a list, one item after another,
and nowhere opens more containers at once than a document may. The array itself is one of them, so the
items may be nested by one level less than a list of them may.
-/

namespace Json

variable {s : State} {stack : List Frame} {items : List Json} {b : UInt8} {v : Json} {shown : Bool}

/-! ## Items within an array -/

/-- A step on an item, as a step on the array that it stands in behind other items. -/
def Step.inArray (items : List Json) : Step → Step
  | .more s stack => if stack.length < depthLimit then .more s (stack ++ [.arr items]) else .fault .tooDeep 0
  | .done v => .more .afterItem [.arr (v :: items)]
  | .fault f back => .fault f back

theorem inArray_more (h : stack.length < depthLimit) :
    (Step.more s stack).inArray items = .more s (stack ++ [.arr items]) := if_pos h

theorem inArray_deliver (h : stack.length < depthLimit) :
    deliver v (stack ++ [.arr items]) = (deliver v stack).inArray items := by
  match stack with
  | [] => rfl
  | .arr _ :: _ => exact (if_pos h).symm
  | .obj _ _ :: _ => exact (if_pos h).symm

theorem inArray_openFrame (s : State) (f : Frame) :
    openFrame (stack ++ [.arr items]) s f = (openFrame stack s f).inArray items := by
  rw [openFrame, openFrame, List.length_append, List.length_singleton]
  by_cases hroom : stack.length + 1 < depthLimit
  · rw [if_pos hroom, if_pos (by omega), inArray_more (by simpa using hroom)]
    rfl
  · rw [if_neg hroom]
    split
    · exact (if_neg (by simpa using hroom)).symm
    · rfl

theorem inArray_startValue (h : stack.length < depthLimit) :
    startValue (stack ++ [.arr items]) b = (startValue stack b).inArray items := by
  simp only [startValue]
  (repeat' split) <;> first | exact inArray_openFrame _ _ | exact (inArray_more h).symm | rfl

theorem inArray_closeFrame (items : List Json) (f : Frame) (h : stack.length < depthLimit) :
    closeFrame (f :: stack ++ [.arr items]) = (closeFrame (f :: stack)).inArray items := by
  cases f <;> exact inArray_deliver h

theorem inArray_stepAfter (f : Frame) (h : (f :: stack).length < depthLimit) :
    stepAfter (f :: stack ++ [.arr items]) b = (stepAfter (f :: stack) b).inArray items := by
  have hclose := inArray_closeFrame items f (Nat.lt_of_succ_lt h)
  cases f <;> simp only [List.cons_append, stepAfter, stepAfterItem, stepAfterMember] <;> (repeat' split) <;>
    first | exact hclose | exact (inArray_more h).symm | rfl

theorem named_append (key : String) (f : Frame) (stack : List Frame) :
    named key (f :: stack ++ [.arr items]) = named key (f :: stack) ++ [.arr items] := by
  cases f <;> rfl

theorem inArray_stepLiteral {r : LiteralStep} {more more' : Literal → Step} {done done' : String → Step}
    (hmore : ∀ l, more' l = (more l).inArray items) (hdone : ∀ t, done' t = (done t).inArray items) :
    stepLiteral r more' done' = (stepLiteral r more done).inArray items := by
  cases r with
  | more l => exact hmore l
  | done t => exact hdone t
  | fault f back => rfl

theorem inArray_text (h : stack.length < depthLimit) (l : Literal) :
    step (.text l) (stack ++ [.arr items]) b = (step (.text l) stack b).inArray items :=
  inArray_stepLiteral (fun _ => (inArray_more h).symm) fun _ => inArray_deliver h

theorem inArray_ident (h : stack.length < depthLimit) (rest : Bytes) (w : Json) :
    step (.ident rest w) (stack ++ [.arr items]) b = (step (.ident rest w) stack b).inArray items := by
  match rest with
  | [] => exact inArray_deliver h
  | [c] =>
      simp only [step]
      split
      · exact inArray_deliver h
      · rfl
  | c :: d :: rest =>
      simp only [step]
      split
      · exact (inArray_more h).symm
      · rfl

/-- The array adds nothing to what is within a container of the item. -/
theorem inArray_enclosed (s : State) (f : Frame) (h : (f :: stack).length < depthLimit) :
    step s (f :: stack ++ [.arr items]) b = (step s (f :: stack) b).inArray items := by
  have hclose := inArray_closeFrame items f (Nat.lt_of_succ_lt h)
  cases s with
  | text l => exact inArray_text h l
  | ident rest w => exact inArray_ident h rest w
  | keyText l =>
      apply inArray_stepLiteral
      · exact fun _ => (inArray_more h).symm
      · intro t
        rw [named_append, inArray_more]
        rwa [length_named]
  | number negative n =>
      simp only [step]
      cases n.step b with
      | more n' => exact (inArray_more h).symm
      | fault g => rfl
      | _ =>
          simp only
          cases n.value negative with
          | error g => rfl
          | ok w =>
              cases f with
              | arr xs => exact inArray_stepAfter _ h
              | obj fields key => exact inArray_stepAfter _ h
  | _ =>
      simp only [step, stepAfterItem, stepAfterMember]
      (repeat' split) <;> first
        | exact inArray_startValue h
        | exact hclose
        | exact (inArray_more h).symm
        | rfl

/-- The byte behind an item that ends before it belongs to the array. -/
theorem step_inArray (h : Within shown s stack) (hlength : stack.length < depthLimit) (items : List Json)
    (b : UInt8) :
    step s (stack ++ [.arr items]) b =
      match step s stack b with
      | .done v => if endsBefore s stack then stepAfter [.arr (v :: items)] b
          else .more .afterItem [.arr (v :: items)]
      | r => r.inArray items := by
  cases stack with
  | cons f stack =>
      have hends : endsBefore s (f :: stack) = false := by cases s <;> rfl
      rw [inArray_enclosed s f hlength, hends]
      cases step s (f :: stack) b <;> rfl
  | nil =>
      cases s with
      | text l =>
          rw [inArray_text hlength]
          cases step (.text l) [] b <;> rfl
      | ident rest w =>
          rw [inArray_ident hlength]
          cases step (.ident rest w) [] b <;> rfl
      | number negative n =>
          simp only [step]
          cases n.step b with
          | more n' => exact (inArray_more hlength).symm
          | fault g => rfl
          | _ =>
              simp only
              cases n.value negative <;> rfl
      | _ => exact h.elim

end Json

open Json (State Frame Brackets Within Spelled depthLimit isBlankByte isDelimiter skipBlanks)

/-- What the brackets in front of a place tell. -/
def ListPlace.brackets : ListPlace → Brackets
  | .between .start => ⟨.outside, 0⟩
  | .between .done => ⟨.outside, 0⟩
  | .between _ => ⟨.outside, 1⟩
  | .afterWord => ⟨.outside, 1⟩
  | .inside s stack => ⟨s.quoting, 1 + stack.length⟩

namespace ListFormat

variable {p q : ListPlace} {s : State} {stack : List Frame} {b : UInt8} {bs : Bytes} {vs ws us : List Json}
  {x : Brackets} {shown : Bool}

/-! ## Both readings side by side -/

/-- Where the reading of an array as a whole stands, when the reading of its items stands at a place behind
the items `vs`. -/
inductive Follows : List Json → ListPlace → State → List Frame → Prop where
  | first : Follows [] (.between .first) .itemOrEnd [.arr []]
  | afterValue (vs : List Json) : Follows vs (.between .afterValue) .afterItem [.arr vs.reverse]
  | afterWord (vs : List Json) : Follows vs .afterWord .afterItem [.arr vs.reverse]
  | beforeValue (vs : List Json) : Follows vs (.between .beforeValue) .item [.arr vs.reverse]
  | inside (vs : List Json) {shown : Bool} {s : State} {stack : List Frame} (hwithin : Within shown s stack)
      (hspelled : Spelled s) (hlength : stack.length < depthLimit) :
      Follows vs (.inside s stack) s (stack ++ [.arr vs.reverse])

/-- What a byte brings to both readings behind the items `vs`, where the brackets tell `x` behind the
byte. -/
inductive Tracks (vs : List Json) (x : Brackets) : Option (List Json × ListPlace) → Json.Step → Prop where
  | refused (f : Json.Fault) (back : Nat) : Tracks vs x none (.fault f back)
  | closed (ws : List Json) (hx : x = ⟨.outside, 0⟩) :
      Tracks vs x (some (ws, .between .done)) (.done (.arr (vs ++ ws)))
  | goes {ws : List Json} {q : ListPlace} {s : State} {stack : List Frame}
      (h : Follows (vs ++ ws) q s stack) (hx : x = q.brackets) : Tracks vs x (some (ws, q)) (.more s stack)
  | tooDeep {ws : List Json} {q : ListPlace} (hx : depthLimit < x.opened) :
      Tracks vs x (some (ws, q)) (.fault .tooDeep 0)

theorem tracks_inArray (hwithin : Within shown s stack) (hspelled : Spelled s)
    (hx : x = ⟨s.quoting, 1 + stack.length⟩) :
    Tracks vs x (some ([], .inside s stack)) ((Json.Step.more s stack).inArray vs.reverse) := by
  rw [Json.Step.inArray]
  split
  · next hlength =>
      apply Tracks.goes ?_ hx
      rw [List.append_nil]
      exact .inside vs hwithin hspelled hlength
  · next hlength =>
      apply Tracks.tooDeep
      rw [hx]
      exact Nat.lt_of_le_of_lt (Nat.le_of_not_lt hlength) (Nat.lt_add_of_pos_left Nat.one_pos)

theorem tracks_opened (vs : List Json) (b : UInt8) :
    Tracks vs (Brackets.read ⟨.outside, 1⟩ b) ((opened b).map ([], ·))
      (Json.startValue [.arr vs.reverse] b) := by
  have hmarked : Json.Marked 1 (Brackets.read ⟨.outside, 1⟩ b) false (Json.startValue [] b) :=
    Json.marked_startValue [] b
  have hbegins := Json.begins_startValue b
  have hroom : ([] : List Frame).length < depthLimit := by decide
  have hstep : Json.startValue [.arr vs.reverse] b = (Json.startValue [] b).inArray vs.reverse :=
    Json.inArray_startValue hroom
  rw [hstep, opened]
  cases hfirst : Json.startValue [] b with
  | more s stack =>
      rw [hfirst] at hmarked hbegins
      exact tracks_inArray hbegins hmarked.2 hmarked.1
  | done v =>
      rw [hfirst] at hbegins
      exact hbegins.elim
  | fault f back => exact .refused f back

theorem tracks_plain {ws : List Json} (hb : Json.Plain b) (h : Follows (vs ++ ws) q s stack)
    (hq : q.brackets = ⟨.outside, 1⟩) :
    Tracks vs (Brackets.read ⟨.outside, 1⟩ b) (some (ws, q)) (.more s stack) :=
  .goes h (by rw [hb, hq])

/-- The byte behind the items of which the last are `ws`. -/
theorem tracks_afterValue (vs ws : List Json) (b : UInt8) :
    Tracks vs (Brackets.read ⟨.outside, 1⟩ b) ((stepBetween .array .afterValue b).map (ws, ·))
      (Json.stepAfter [.arr (vs ++ ws).reverse] b) := by
  simp only [stepBetween, Json.stepAfter, Json.stepAfterItem]
  split
  · next hblank => exact tracks_plain (Json.plain_of_isBlankByte hblank) (.afterValue _) rfl
  split
  · next hclose =>
      subst hclose
      have hclosed : Json.closeFrame [.arr (vs ++ ws).reverse] = .done (.arr (vs ++ ws)) := by
        rw [Json.closeFrame, List.reverse_reverse]
        rfl
      rw [hclosed]
      exact .closed ws rfl
  split
  · next hcomma => exact tracks_plain (hcomma ▸ Json.plain_comma) (.beforeValue _) rfl
  · exact .refused _ _

/-- A byte that may not stand behind a word or a number is no separator. -/
theorem tracks_behind (vs ws : List Json) (b : UInt8) :
    Tracks vs (Brackets.read ⟨.outside, 1⟩ b) ((stepBehind .array b).map (ws, ·))
      (Json.stepAfter [.arr (vs ++ ws).reverse] b) := by
  have hafter := tracks_afterValue vs ws b
  rw [stepBehind]
  split
  · exact hafter
  · next hb =>
      have hsticks : Sticks .afterWord [b] := ⟨rfl, b, [], rfl, by simpa using hb⟩
      have hnone := scan_settled_of_sticks hsticks
      rw [settled, behind, scan_between] at hnone
      cases hbetween : stepBetween .array .afterValue b with
      | none =>
          rw [hbetween] at hafter
          exact hafter
      | some p =>
          rw [hbetween] at hnone
          cases hnone

theorem tracks_inside (vs : List Json) (hwithin : Within shown s stack) (hspelled : Spelled s)
    (hlength : stack.length < depthLimit) (b : UInt8) :
    Tracks vs (Brackets.read ⟨s.quoting, 1 + stack.length⟩ b) (step .array (.inside s stack) b)
      (Json.step s (stack ++ [.arr vs.reverse]) b) := by
  have hmarked : Json.Marked 1 (Brackets.read ⟨s.quoting, 1 + stack.length⟩ b) (Json.endsBefore s stack)
      (Json.step s stack b) := Json.marked_step hwithin hspelled b
  have hcontinues := Json.continues_step hwithin b
  rw [step, Json.step_inArray hwithin hlength]
  cases hstep : Json.step s stack b with
  | more s' stack' =>
      rw [hstep] at hmarked hcontinues
      exact tracks_inArray hcontinues hmarked.2 hmarked.1
  | fault f back => exact .refused f back
  | done v =>
      rw [hstep] at hmarked
      have hitems : v :: vs.reverse = (vs ++ [v]).reverse := by simp
      simp only [hitems]
      cases hends : Json.endsBefore s stack with
      | false =>
          rw [hmarked hends]
          simp only [Bool.false_eq_true, if_false, placeBehind]
          split
          · exact .goes (.afterWord _) rfl
          · exact .goes (.afterValue _) rfl
      | true =>
          -- The value is a number by itself.
          obtain ⟨negative, n, rfl, rfl⟩ : ∃ negative n, s = .number negative n ∧ stack = [] := by
            unfold Json.endsBefore at hends
            split at hends
            · exact ⟨_, _, rfl, rfl⟩
            · cases hends
          exact tracks_behind vs [v] b

/-- Both readings stay together, until the array is closed or one container too many is opened. -/
theorem tracks_step (h : Follows vs p s stack) (b : UInt8) :
    Tracks vs (p.brackets.read b) (step .array p b) (Json.step s stack b) := by
  cases h with
  | inside vs hwithin hspelled hlength => exact tracks_inside vs hwithin hspelled hlength b
  | afterWord vs =>
      have hbehind := tracks_behind vs [] b
      rw [List.append_nil] at hbehind
      exact hbehind
  | afterValue vs =>
      have hafter := tracks_afterValue vs [] b
      rw [List.append_nil] at hafter
      exact hafter
  | beforeValue vs =>
      simp only [step, stepBetween, Json.step]
      split
      · next hblank =>
          refine tracks_plain (Json.plain_of_isBlankByte hblank) ?_ rfl
          rw [List.append_nil]
          exact .beforeValue vs
      split
      · next hclose =>
          subst hclose
          exact .refused _ _
      · exact tracks_opened vs b
  | first =>
      simp only [step, stepBetween, Json.step]
      split
      · next hblank => exact tracks_plain (Json.plain_of_isBlankByte hblank) .first rfl
      split
      · next hclose =>
          subst hclose
          exact .closed [] rfl
      · exact tracks_opened [] b

/-! ## Whole texts -/

theorem complete_cons (p : ListPlace) (b : UInt8) (bs : Bytes) :
    complete .array p (b :: bs) =
      (step .array p b).bind fun x => (complete .array x.2 bs).map (x.1 ++ ·) := by
  rw [complete, scan]
  cases hstep : step .array p b with
  | none => rfl
  | some x =>
      have hscan : scan .array p (b :: bs) = give x.1 (scan .array x.2 bs) := by
        rw [scan, hstep]
        rfl
      have hcomplete := complete_of_scan hscan
      rw [complete, scan, hstep] at hcomplete
      exact hcomplete

/-- Nothing but blanks may follow an array, and they open no containers. -/
theorem complete_done (bs : Bytes) :
    (skipBlanks bs = [] → complete .array (.between .done) bs = some [] ∧
      Brackets.most ⟨.outside, 0⟩ bs = 0) ∧
    (skipBlanks bs ≠ [] → complete .array (.between .done) bs = none) := by
  induction bs with
  | nil => exact ⟨fun _ => ⟨rfl, rfl⟩, fun hne => absurd rfl hne⟩
  | cons b bs ih =>
      rw [complete_cons, step, stepBetween]
      cases hb : isBlankByte b with
      | true =>
          have hskip : skipBlanks (b :: bs) = skipBlanks bs := List.dropWhile_cons_of_pos hb
          have hmost : Brackets.most ⟨.outside, 0⟩ (b :: bs) = Brackets.most ⟨.outside, 0⟩ bs := by
            rw [Brackets.most, Json.plain_of_isBlankByte hb]
            exact Nat.zero_max _
          rw [hskip, hmost]
          refine ⟨fun h => ⟨?_, (ih.1 h).2⟩, fun h => ?_⟩
          · simp [(ih.1 h).1]
          · simp [ih.2 h]
      | false =>
          have hskip : skipBlanks (b :: bs) = b :: bs := List.dropWhile_cons_of_neg (by simp [hb])
          refine ⟨fun h => ?_, fun _ => rfl⟩
          rw [hskip] at h
          cases h

theorem le_most (x : Brackets) (bs : Bytes) : x.opened ≤ x.most bs := by
  cases bs with
  | nil => exact Nat.le_refl _
  | cons b bs => exact Nat.le_max_left _ _

theorem Follows.opened_le (h : Follows vs p s stack) : p.brackets.opened ≤ depthLimit := by
  cases h with
  | inside vs hwithin hspelled hlength =>
      simp only [ListPlace.brackets]
      omega
  | _ => decide

theorem Follows.endsBefore (h : Follows vs p s stack) : Json.endsBefore s stack = false := by
  cases h with
  | @inside _ _ s stack hwithin hspelled hlength => cases s <;> cases stack <;> rfl
  | _ => rfl

theorem Follows.finish (h : Follows vs p s stack) : finish .array p = none := by
  cases h <;> rfl

/-- The array `us` is read as a whole, with nothing behind it. -/
def ReadsWhole (us : List Json) (r : Json.Outcome) : Prop :=
  ∃ rest, r = .value (.arr us) rest ∧ skipBlanks rest = []

/-- The items `us` are read, and not too many containers are opened. -/
def ReadsItems (vs us : List Json) (p : ListPlace) (bs : Bytes) : Prop :=
  ∃ ws, complete .array p bs = some ws ∧ vs ++ ws = us ∧ p.brackets.most bs ≤ depthLimit

theorem not_readsWhole_ended (s : State) (stack : List Frame) : ¬ReadsWhole us (.ended s stack) := by
  rintro ⟨rest, hrun, -⟩
  cases hrun

theorem not_readsWhole_fault (f : Json.Fault) (n : Nat) : ¬ReadsWhole us (.fault f n) := by
  rintro ⟨rest, hrun, -⟩
  cases hrun

theorem readsWhole_value_iff {v : Json} {rest : Bytes} :
    ReadsWhole us (.value v rest) ↔ v = .arr us ∧ skipBlanks rest = [] := by
  constructor
  · rintro ⟨rest, hrun, hrest⟩
    cases hrun
    exact ⟨rfl, hrest⟩
  · rintro ⟨rfl, hrest⟩
    exact ⟨rest, rfl, hrest⟩

theorem not_readsItems (h : complete .array p bs = none) : ¬ReadsItems vs us p bs := by
  rintro ⟨ws, hws, -⟩
  cases h.symm.trans hws

/-- Items that come with a byte stand in front of those of the text behind it. -/
theorem readsItems_cons (h : step .array p b = some (ws, q)) (hopened : p.brackets.opened ≤ depthLimit)
    (hbrackets : p.brackets.read b = q.brackets) :
    ReadsItems vs us p (b :: bs) ↔ ReadsItems (vs ++ ws) us q bs := by
  rw [ReadsItems, complete_cons, h, Brackets.most, Nat.max_le, and_iff_right hopened, hbrackets]
  constructor
  · rintro ⟨all, hall, rfl, hmost⟩
    obtain ⟨more, hmore, rfl⟩ := Option.map_eq_some_iff.mp hall
    exact ⟨more, hmore, List.append_assoc _ _ _, hmost⟩
  · rintro ⟨more, hmore, rfl, hmost⟩
    refine ⟨ws ++ more, ?_, (List.append_assoc _ _ _).symm, hmost⟩
    rw [Option.bind_some, hmore]
    rfl

/-- By induction on the text, which both readings go through together. -/
theorem readsWhole_iff (h : Follows vs p s stack) (n : Nat) (bs : Bytes) :
    ReadsWhole us (Json.run s stack n bs) ↔ ReadsItems vs us p bs := by
  induction bs generalizing vs p s stack n with
  | nil =>
      refine iff_of_false (not_readsWhole_ended s stack) (not_readsItems ?_)
      rw [complete_nil, h.finish]
  | cons b bs ih =>
      have htracks := tracks_step h b
      have hopened := h.opened_le
      rw [Json.run]
      generalize hitems : step .array p b = items at htracks
      generalize Json.step s stack b = whole at htracks
      generalize hx : p.brackets.read b = x at htracks
      cases htracks with
      | refused f back =>
          refine iff_of_false (not_readsWhole_fault f _) (not_readsItems ?_)
          rw [complete_cons, hitems]
          rfl
      | tooDeep hdeep =>
          refine iff_of_false (not_readsWhole_fault _ _) ?_
          rintro ⟨all, -, -, hmost⟩
          rw [Brackets.most, Nat.max_le, hx] at hmost
          exact absurd (Nat.le_trans (le_most _ bs) hmost.2) (Nat.not_le_of_lt hdeep)
      | goes hnext hbrackets =>
          rw [readsItems_cons hitems hopened (hx.trans hbrackets)]
          exact ih hnext (n + 1)
      | closed ws hclosed =>
          obtain ⟨hblank, hother⟩ := complete_done bs
          rw [readsItems_cons hitems hopened (hx.trans hclosed), h.endsBefore]
          refine readsWhole_value_iff.trans ?_
          by_cases hrest : skipBlanks bs = []
          · obtain ⟨hdone, hmost⟩ := hblank hrest
            constructor
            · rintro ⟨hus, -⟩
              refine ⟨[], hdone, ?_, Nat.le_trans (Nat.le_of_eq hmost) (Nat.zero_le _)⟩
              rw [List.append_nil]
              exact Json.arr.inj hus
            · rintro ⟨more, hmore, rfl, -⟩
              obtain rfl := Option.some.inj (hdone.symm.trans hmore)
              exact ⟨by rw [List.append_nil], hrest⟩
          · exact iff_of_false (fun h => hrest h.2) (not_readsItems (hother hrest))

theorem readsWhole_start_iff (n : Nat) (bs : Bytes) :
    ReadsWhole us (Json.run .value [] n bs) ↔ ReadsItems [] us (.between .start) bs := by
  have hopened : (ListPlace.between .start).brackets.opened ≤ depthLimit := Nat.zero_le _
  induction bs generalizing n with
  | nil => exact iff_of_false (not_readsWhole_ended _ _) (not_readsItems rfl)
  | cons b bs ih =>
      cases hblank : isBlankByte b with
      | true =>
          have hrun : Json.run .value [] n (b :: bs) = Json.run .value [] (n + 1) bs := by
            simp [Json.run, Json.step, hblank]
          have hstep : step .array (.between .start) b = some ([], .between .start) := by
            simp [step, stepBetween, hblank]
          rw [hrun, readsItems_cons hstep hopened (Json.plain_of_isBlankByte hblank 0)]
          exact ih (n + 1)
      | false =>
          by_cases hopen : b = 0x5B
          · subst hopen
            rw [readsItems_cons (q := .between .first) rfl hopened rfl]
            exact readsWhole_iff .first (n + 1) bs
          · apply iff_of_false
            · rintro ⟨rest, hrun, -⟩
              cases Json.isArray_of_run hopen hblank hrun
            · apply not_readsItems
              simp [complete_cons, step, stepBetween, hblank, hopen]

/-- Only a number may be read where a text ends. -/
theorem readJson_arr_iff (data : Bytes) :
    Codec.readJson data = .ok (.arr us) ↔ ReadsWhole us (Json.run .value [] 0 data) := by
  rw [Codec.readJson, Json.read]
  cases hrun : Json.run .value [] 0 data with
  | value v rest =>
      rw [readsWhole_value_iff]
      simp only
      cases skipBlanks rest with
      | nil => simp
      | cons b more => simp
  | ended s stack =>
      apply iff_of_false ?_ (not_readsWhole_ended s stack)
      intro h
      rcases ListDecoder.atEnd_cases s stack with ⟨v, hend, hnumber, -⟩ | ⟨f, hend, -⟩ | ⟨hend, -⟩
      · simp only [hend, Except.ok.injEq] at h
        rw [h] at hnumber
        cases hnumber
      · simp only [hend] at h
        cases h
      · simp only [hend] at h
        cases h
  | fault f n =>
      apply iff_of_false ?_ (not_readsWhole_fault f n)
      intro h
      cases h

/-- A text is read as the document of an array if and only if its items are read one after another and it
nowhere has more than 127 containers open, the array among them. The items then nest no deeper than 126
levels. -/
theorem unmarshal_iff_decodeList (data : Bytes) (vs : List Json) :
    (Codec.json.unmarshal data = .ok (.arr vs) ↔
        decodeList .array data = .ok vs ∧ Json.nesting data ≤ 127) ∧
      (Codec.json.unmarshal data = .ok (.arr vs) → ∀ v ∈ vs, v.depth ≤ 126) := by
  have hwhole : Codec.json.unmarshal data = .ok (.arr vs) ↔ ReadsWhole vs (Json.run .value [] 0 data) :=
    readJson_arr_iff data
  constructor
  · rw [hwhole, readsWhole_start_iff]
    constructor
    · rintro ⟨ws, hws, rfl, hmost⟩
      exact ⟨ListDecoder.decodeList_of_complete hws, hmost⟩
    · rintro ⟨hvs, hmost⟩
      exact ⟨vs, ListDecoder.complete_of_decodeList hvs, rfl, hmost⟩
  · rw [hwhole]
    rintro ⟨rest, hrun, -⟩
    have hdepth : Json.depthItems vs + 1 ≤ 127 := Json.depth_of_run hrun
    exact Json.depthItems_le_iff.mp (Nat.le_of_succ_le_succ hdepth)

/-- An array of an item that is nested as deep as an item may be. -/
def nestedItem : Bytes := List.replicate 127 0x5B ++ List.replicate 127 0x5D

theorem unmarshal_iff_decodeList_nestedItem : Json.nesting nestedItem = 127 ∧
    ∃ vs, decodeList .array nestedItem = .ok vs ∧ Codec.json.unmarshal nestedItem = .ok (.arr vs) ∧
      (∃ v ∈ vs, v.depth = 126) ∧ ∀ v ∈ vs, v.depth ≤ 126 := by
  have hnesting : Json.nesting nestedItem = 127 := by decide +kernel
  have hdepth : ((decodeList .array nestedItem).toOption.any fun vs => vs.any (·.depth = 126)) = true := by
    decide +kernel
  cases hvs : decodeList .array nestedItem with
  | error e =>
      rw [hvs] at hdepth
      cases hdepth
  | ok vs =>
      rw [hvs] at hdepth
      obtain ⟨hwhole, hdeep⟩ := unmarshal_iff_decodeList nestedItem vs
      have hread := hwhole.mpr ⟨hvs, Nat.le_of_eq hnesting⟩
      obtain ⟨v, hv, hv126⟩ := List.any_eq_true.mp hdepth
      exact ⟨hnesting, vs, rfl, hread, ⟨v, hv, of_decide_eq_true hv126⟩, hdeep hread⟩

/-- An array of one object, in which a member nested 126 levels deep is replaced by a number. -/
def replacedMember : Bytes :=
  Utf8.encode "[\x7b\"a\":" ++ List.replicate 126 0x5B ++ List.replicate 126 0x5D ++
    Utf8.encode ",\"a\":1\x7d]"

theorem not_unmarshal_replacedMember : ∃ vs, decodeList .array replacedMember = .ok vs ∧
    (∀ v ∈ vs, v.depth ≤ 126) ∧ ¬Codec.json.unmarshal replacedMember = .ok (.arr vs) := by
  have hitems :
      ((decodeList .array replacedMember).toOption.any fun vs => vs.all (·.depth ≤ 126)) = true := by
    decide +kernel
  have hwhole : (Codec.json.unmarshal replacedMember).isOk = false := by decide +kernel
  cases hvs : decodeList .array replacedMember with
  | error e =>
      rw [hvs] at hitems
      cases hitems
  | ok vs =>
      rw [hvs] at hitems
      refine ⟨vs, rfl, fun v hv => of_decide_eq_true (List.all_eq_true.mp hitems v hv), fun h => ?_⟩
      rw [h] at hwhole
      cases hwhole

end ListFormat

end WebResource
