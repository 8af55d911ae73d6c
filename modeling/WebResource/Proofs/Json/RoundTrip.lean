import WebResource.Proofs.Json.Number
import WebResource.Proofs.Json.Text

namespace WebResource.Json

/-!
# Reading what has been written

The machine reads the text of a document to its end without a fault, whatever containers are open
around it, as long as they leave room for those of the document. It has the document at the last
byte of the text, or, where the text is a number, as soon as anything follows that ends a value.
-/

mutual

/-- A document whose numbers are integers of the range, and whose objects hold each name once and in
order. -/
def Integral : Json → Prop
  | .float _ => False
  | .int i => minInt ≤ i ∧ i ≤ maxNat
  | .arr xs => IntegralItems xs
  | .obj fs => fs.Pairwise (fun f g => f.1 < g.1) ∧ IntegralFields fs
  | _ => True

def IntegralItems : List Json → Prop
  | [] => True
  | x :: xs => Integral x ∧ IntegralItems xs

def IntegralFields : Fields → Prop
  | [] => True
  | (_, v) :: fs => Integral v ∧ IntegralFields fs

end

variable {s s₁ : State} {stack stack₁ : List Frame} {b : UInt8} {bs : Bytes} {v : Json} {f : Frame}

/-! ## Finished values -/

/-- A text at whose end, or right behind which, the machine has a value. -/
inductive Settles (v : Json) (s : State) (stack : List Frame) : Bytes → Prop where
  | shown {bs : Bytes} {s₁ : State} {stack₁ : List Frame} {b : UInt8}
      (h : Passes s stack bs s₁ stack₁) (hlast : step s₁ stack₁ b = deliver v stack)
      (hends : endsBefore s₁ stack₁ = false) : Settles v s stack (bs ++ [b])
  | number {bs : Bytes} {negative : Bool} {n : Numeral}
      (h : Passes s stack bs (.number negative n) stack) (hvalue : n.value negative = .ok v)
      (hcomplete : n.Complete) : Settles v s stack bs

/-- A container that has received one more value. -/
def received (v : Json) : Frame → Frame
  | .arr items => .arr (v :: items)
  | .obj fields key => .obj (insertField key v fields) key

/-- What the machine waits for behind a value in a container. -/
def waiting : Frame → State
  | .arr _ => .afterItem
  | .obj _ _ => .afterMember

theorem deliver_cons (v : Json) (f : Frame) (stack : List Frame) :
    deliver v (f :: stack) = .more (waiting f) (received v f :: stack) := by
  cases f <;> rfl

theorem step_waiting (v : Json) (f : Frame) (stack : List Frame) (hblank : isBlankByte b = false) :
    step (waiting f) (received v f :: stack) b = stepAfter (received v f :: stack) b := by
  cases f <;> simp [waiting, received, step, stepAfter, hblank]

/-- Behind a value in a container, the byte that ends it is read as one behind the value. -/
theorem Settles.followed (h : Settles v s (f :: stack) bs) (hb : EndsValue b)
    (hblank : isBlankByte b = false) :
    ∃ s₁ stack₁, Passes s (f :: stack) bs s₁ stack₁ ∧ endsBefore s₁ stack₁ = false ∧
      step s₁ stack₁ b = stepAfter (received v f :: stack) b := by
  cases h with
  | @shown bs s₁ stack₁ b' h hlast hends =>
      rw [deliver_cons] at hlast
      have hbenign : Benign (waiting f) := by cases f <;> trivial
      have hwaiting : endsBefore (waiting f) (received v f :: stack) = false := by cases f <;> rfl
      exact ⟨_, _, h.append (Passes.one h.benign_right hlast hbenign), hwaiting,
        step_waiting v f stack hblank⟩
  | @number bs negative n h hvalue hcomplete =>
      refine ⟨_, _, h, rfl, ?_⟩
      simp only [step, hcomplete b hb, hvalue, deliver_cons]

/-! ## Fields in order -/

theorem insertField_append_of_lt {k : String} {v : Json} {fs : Fields} (h : ∀ f ∈ fs, f.1 < k)
    (gs : Fields) : insertField k v (fs ++ gs) = fs ++ insertField k v gs := by
  induction fs with
  | nil => rfl
  | cons f fs ih =>
      obtain ⟨hf, hfs⟩ := List.forall_mem_cons.mp h
      have hne : k ≠ f.1 := fun heq => String.lt_irrefl k (heq ▸ hf)
      have hlt : ¬k < f.1 := String.lt_asymm hf
      rw [List.cons_append, insertField, if_neg hne, if_neg hlt, ih hfs, List.cons_append]

theorem insertField_of_lt {k : String} {v : Json} {fs : Fields} (h : ∀ f ∈ fs, f.1 < k) :
    insertField k v fs = fs ++ [(k, v)] := by
  rw [← List.append_nil fs, insertField_append_of_lt h, List.append_nil]
  rfl

/-- The last field gives way to one of its name. -/
theorem insertField_last {k : String} {v v' : Json} {fs : Fields}
    (h : (fs ++ [(k, v')]).Pairwise fun f g => f.1 < g.1) :
    insertField k v (fs ++ [(k, v')]) = fs ++ [(k, v)] := by
  have hlast : ∀ f ∈ fs, f.1 < k := fun f hf =>
    (List.pairwise_append.mp h).2.2 f hf (k, v') (List.mem_singleton_self _)
  rw [insertField_append_of_lt hlast, insertField, if_pos rfl]

/-! ## Documents -/

theorem startValue_quote (stack : List Frame) : startValue stack 0x22 = .more (.text .empty) stack :=
  rfl

theorem startValue_list (h : stack.length < depthLimit) :
    startValue stack 0x5B = .more .itemOrEnd (.arr [] :: stack) := by
  simp [startValue, openFrame, h]

theorem startValue_object (h : stack.length < depthLimit) :
    startValue stack 0x7B = .more .keyOrEnd (.obj [] "" :: stack) := by
  simp [startValue, openFrame, h]

theorem settles_word (b : UInt8) (word : Bytes) (c : UInt8) (hs : Awaits s)
    (hblank : isBlankByte b = false) (hclose : b ≠ 0x5D)
    (hstart : startValue stack b = .more (.ident (word ++ [c]) v) stack) :
    Settles v s stack (b :: (word ++ [c])) := by
  have hword : Passes (.ident (word ++ [c]) v) stack word (.ident [c] v) stack := by
    clear hstart
    induction word with
    | nil => exact .nil trivial
    | cons d word ih =>
        refine .cons trivial ?_ ih
        cases word <;> simp [step]
  have hlast : step (.ident [c] v) stack c = deliver v stack := by simp [step]
  exact .shown (.cons hs.benign (hs.step hblank hclose ▸ hstart) hword) hlast rfl

theorem settles_string (hs : Awaits s) (t : String) : Settles (.str t) s stack (renderString t) := by
  have hopen : step s stack 0x22 = .more (.text .empty) stack := by
    rw [hs.step (by decide) (by decide), startValue_quote]
  exact .shown (.cons hs.benign hopen (passes_text t)) (step_text_quote t) rfl

theorem awaits_of_itemOrEnd {p : Prop} (h : s = .itemOrEnd ∨ (s = .item ∧ p)) : Awaits s :=
  h.elim (fun h => Or.inr (Or.inl h)) fun h => Or.inr (Or.inr h.1)

theorem passes_name (k : String) (acc : Fields) (key : String) (st : List Frame)
    (hs : s = .keyOrEnd ∨ s = .key) :
    Passes s (.obj acc key :: st) (renderString k ++ [0x3A]) .value (.obj acc k :: st) := by
  have hbenign : Benign s := by rcases hs with rfl | rfl <;> trivial
  have hopen : step s (.obj acc key :: st) 0x22 = .more (.keyText .empty) (.obj acc key :: st) := by
    rcases hs with rfl | rfl <;> rfl
  have hclose : Passes (.keyText (literalOf k)) (.obj acc key :: st) [0x22] .colon
      (.obj acc k :: st) := Passes.one trivial (step_keyText_quote k) trivial
  have hcolon : Passes .colon (.obj acc k :: st) [0x3A] .value (.obj acc k :: st) :=
    Passes.one trivial rfl trivial
  exact (Passes.cons hbenign hopen ((passes_keyText k).append hclose)).append hcolon

mutual

/-- The text of a document, where a value may start. -/
theorem settles_render (v : Json) (hv : Integral v) (s : State) (stack : List Frame) (hs : Awaits s)
    (hdepth : stack.length + depth v ≤ depthLimit) : Settles v s stack (render v) := by
  match v, hv with
  | .null, _ => exact settles_word 0x6E [0x75, 0x6C] 0x6C hs (by decide) (by decide) rfl
  | .bool true, _ => exact settles_word 0x74 [0x72, 0x75] 0x65 hs (by decide) (by decide) rfl
  | .bool false, _ => exact settles_word 0x66 [0x61, 0x6C, 0x73] 0x65 hs (by decide) (by decide) rfl
  | .int i, hv =>
      obtain ⟨negative, n, hpasses, hvalue, hcomplete⟩ := passes_intChars hs hv.1 hv.2
      exact .number hpasses hvalue hcomplete
  | .str t, _ => exact settles_string hs t
  | .arr xs, hv =>
      rw [depth] at hdepth
      have hopen : step s stack 0x5B = .more .itemOrEnd (.arr [] :: stack) := by
        rw [hs.step (by decide) (by decide), startValue_list (by omega)]
      obtain ⟨bs, s₁, stack₁, hrender, hpasses, hends, hlast⟩ :=
        closes_renderItems xs hv .itemOrEnd [] stack (Or.inl rfl) (by omega)
      rw [render, hrender]
      exact .shown (.cons hs.benign hopen hpasses) hlast hends
  | .obj fs, hv =>
      rw [depth] at hdepth
      have hopen : step s stack 0x7B = .more .keyOrEnd (.obj [] "" :: stack) := by
        rw [hs.step (by decide) (by decide), startValue_object (by omega)]
      obtain ⟨bs, s₁, stack₁, hrender, hpasses, hends, hlast⟩ := closes_renderFields fs hv.1 hv.2
        .keyOrEnd [] "" stack (Or.inl rfl) (fun f hf => absurd hf List.not_mem_nil) (by omega)
      rw [render, hrender]
      exact .shown (.cons hs.benign hopen hpasses) hlast hends

/-- The items of an array and its end, behind the items that have been read. -/
theorem closes_renderItems (xs : List Json) (hxs : IntegralItems xs) (s : State) (acc : List Json)
    (st : List Frame) (hs : s = .itemOrEnd ∨ (s = .item ∧ xs ≠ []))
    (hdepth : st.length + (depthItems xs + 1) ≤ depthLimit) :
    ∃ bs s₁ stack₁, renderItems xs = bs ++ [0x5D] ∧ Passes s (.arr acc :: st) bs s₁ stack₁ ∧
      endsBefore s₁ stack₁ = false ∧
      step s₁ stack₁ 0x5D = deliver (.arr (acc.reverse ++ xs)) st := by
  match xs, hxs with
  | [], _ =>
      obtain rfl : s = .itemOrEnd := hs.resolve_right fun h => h.2 rfl
      refine ⟨[], .itemOrEnd, .arr acc :: st, rfl, .nil trivial, rfl, ?_⟩
      simp [step, isBlankByte, closeFrame]
  | [x], hx =>
      simp only [depthItems] at hdepth
      have hitem := settles_render x hx.1 s (.arr acc :: st) (awaits_of_itemOrEnd hs)
        (by rw [List.length_cons]; omega)
      obtain ⟨s₁, stack₁, hpasses, hends, hstep⟩ :=
        hitem.followed (b := 0x5D) (Or.inr (Or.inl rfl)) (by decide)
      refine ⟨render x, s₁, stack₁, rfl, hpasses, hends, ?_⟩
      rw [hstep]
      simp [stepAfter, received, isBlankByte, stepAfterItem, closeFrame]
  | x :: y :: xs, hx =>
      rw [depthItems] at hdepth
      have hitem := settles_render x hx.1 s (.arr acc :: st) (awaits_of_itemOrEnd hs)
        (by rw [List.length_cons]; omega)
      obtain ⟨s₁, stack₁, hpasses, hends, hstep⟩ :=
        hitem.followed (b := 0x2C) (Or.inl rfl) (by decide)
      have hcomma : step s₁ stack₁ 0x2C = .more .item (.arr (x :: acc) :: st) := by
        rw [hstep]
        rfl
      obtain ⟨bs, s₂, stack₂, hrender, hrest, hends, hlast⟩ := closes_renderItems (y :: xs) hx.2 .item
        (x :: acc) st (Or.inr ⟨rfl, List.cons_ne_nil y xs⟩) (by omega)
      refine ⟨render x ++ 0x2C :: bs, s₂, stack₂, ?_,
        hpasses.append (.cons hpasses.benign_right hcomma hrest), hends, ?_⟩
      · rw [renderItems, hrender, List.append_assoc, List.cons_append]
      · rw [hlast, List.reverse_cons, List.append_assoc, List.singleton_append]

/-- The members of an object and its end, behind the members that have been read. -/
theorem closes_renderFields (fs : Fields) (hsorted : fs.Pairwise fun f g => f.1 < g.1)
    (hfs : IntegralFields fs) (s : State) (acc : Fields) (key : String) (st : List Frame)
    (hs : s = .keyOrEnd ∨ (s = .key ∧ fs ≠ [])) (hacc : ∀ f ∈ acc, ∀ g ∈ fs, f.1 < g.1)
    (hdepth : st.length + (depthFields fs + 1) ≤ depthLimit) :
    ∃ bs s₁ stack₁, renderFields fs = bs ++ [0x7D] ∧ Passes s (.obj acc key :: st) bs s₁ stack₁ ∧
      endsBefore s₁ stack₁ = false ∧ step s₁ stack₁ 0x7D = deliver (.obj (acc ++ fs)) st := by
  match fs, hfs with
  | [], _ =>
      obtain rfl : s = .keyOrEnd := hs.resolve_right fun h => h.2 rfl
      refine ⟨[], .keyOrEnd, .obj acc key :: st, rfl, .nil trivial, rfl, ?_⟩
      simp [step, isBlankByte, closeFrame]
  | [(k, v)], hv =>
      simp only [depthFields] at hdepth
      have hname := passes_name k acc key st (hs.imp_right And.left)
      have hvalue := settles_render v hv.1 .value (.obj acc k :: st) (Or.inl rfl)
        (by rw [List.length_cons]; omega)
      obtain ⟨s₁, stack₁, hpasses, hends, hstep⟩ :=
        hvalue.followed (b := 0x7D) (Or.inr (Or.inr (Or.inl rfl))) (by decide)
      have hinsert : insertField k v acc = acc ++ [(k, v)] :=
        insertField_of_lt fun f hf => hacc f hf (k, v) List.mem_cons_self
      refine ⟨renderString k ++ [0x3A] ++ render v, s₁, stack₁, ?_, hname.append hpasses, hends, ?_⟩
      · simp [renderFields]
      · rw [hstep]
        simp [stepAfter, received, isBlankByte, stepAfterMember, closeFrame, hinsert]
  | (k, v) :: f :: fs, hv =>
      rw [depthFields] at hdepth
      have hname := passes_name k acc key st (hs.imp_right And.left)
      have hvalue := settles_render v hv.1 .value (.obj acc k :: st) (Or.inl rfl)
        (by rw [List.length_cons]; omega)
      obtain ⟨s₁, stack₁, hpasses, hends, hstep⟩ :=
        hvalue.followed (b := 0x2C) (Or.inl rfl) (by decide)
      -- The names are in order, so the machine inserts each member behind the others.
      have hinsert : insertField k v acc = acc ++ [(k, v)] :=
        insertField_of_lt fun f hf => hacc f hf (k, v) List.mem_cons_self
      have hcomma : step s₁ stack₁ 0x2C = .more .key (.obj (acc ++ [(k, v)]) k :: st) := by
        rw [hstep, ← hinsert]
        rfl
      obtain ⟨hfirst, hsorted⟩ := List.pairwise_cons.mp hsorted
      have hacc' : ∀ g ∈ acc ++ [(k, v)], ∀ g' ∈ f :: fs, g.1 < g'.1 := by
        intro g hg g' hg'
        rcases List.mem_append.mp hg with hg | hg
        · exact hacc g hg g' (List.mem_cons_of_mem _ hg')
        · rw [List.mem_singleton] at hg
          exact hg ▸ hfirst g' hg'
      obtain ⟨bs, s₂, stack₂, hrender, hrest, hends, hlast⟩ := closes_renderFields (f :: fs) hsorted
        hv.2 .key (acc ++ [(k, v)]) k st (Or.inr ⟨rfl, List.cons_ne_nil f fs⟩) hacc' (by omega)
      refine ⟨renderString k ++ [0x3A] ++ (render v ++ 0x2C :: bs), s₂, stack₂, ?_,
        hname.append (hpasses.append (.cons hpasses.benign_right hcomma hrest)), hends, ?_⟩
      · simp [renderFields, hrender]
      · rw [hlast, List.append_assoc, List.singleton_append]

end

/-! ## Whole texts -/

/-- A document that the reader takes: it is integral, and its containers fit the limit. -/
def Readable (v : Json) : Prop := Integral v ∧ depth v ≤ depthLimit

theorem settles_of_readable (h : Readable v) : Settles v .value [] (render v) :=
  settles_render v h.1 .value [] (Or.inl rfl) (by rw [List.length_nil, Nat.zero_add]; exact h.2)

theorem run_render_followed (h : Readable v) (hb : EndsValue b) (n : Nat) (rest : Bytes) :
    run .value [] n (render v ++ b :: rest) = .value v (b :: rest) := by
  generalize hbs : render v = bs
  have hsettles := hbs ▸ settles_of_readable h
  cases hsettles with
  | @shown bs s₁ stack₁ last hpasses hlast hends =>
      rw [List.append_assoc, hpasses.run, List.singleton_append, run, hlast]
      simp [deliver, hends]
  | @number bs negative m hpasses hvalue hcomplete =>
      rw [hpasses.run, run]
      simp [step, hcomplete b hb, hvalue, deliver, endsBefore]

/-- A document alone: a number has not ended before the text ends. -/
theorem run_render (h : Readable v) (n : Nat) :
    run .value [] n (render v) = .value v [] ∨
      ∃ s stack, run .value [] n (render v) = .ended s stack ∧ atEnd s stack = .ok v ∧
        v.isNumber = true := by
  generalize hbs : render v = bs
  have hsettles := hbs ▸ settles_of_readable h
  cases hsettles with
  | @shown bs s₁ stack₁ last hpasses hlast hends =>
      refine Or.inl ?_
      rw [hpasses.run, run, hlast]
      simp [deliver, hends]
  | @number bs negative m hpasses hvalue hcomplete =>
      refine Or.inr ⟨_, _, hpasses.run_ended n, ?_, ?_⟩
      · simp [atEnd, hvalue]
      · obtain ⟨i, hi⟩ | ⟨f, hf, -⟩ := hpasses.benign_right
        · rw [hi] at hvalue
          cases hvalue
          rfl
        · rw [hf] at hvalue
          cases hvalue

/-- The front of a document is an integer, or could go on. -/
theorem run_front (h : Readable v) {front back : Bytes} (hsplit : render v = front ++ back)
    (hback : back ≠ []) (n : Nat) :
    ∃ s stack, run .value [] n front = .ended s stack ∧
      ((∃ i, atEnd s stack = .ok (.int i)) ∨ ∃ f, atEnd s stack = .error f ∧ f.isEnd = true) := by
  have hpasses : ∃ s stack, Passes .value [] front s stack := by
    have hsettles := hsplit ▸ settles_of_readable h
    generalize hbs : front ++ back = bs at hsettles
    cases hsettles with
    | @shown bs s₁ stack₁ last hpasses hlast hends =>
        -- The last byte of the text is in `back`, so the front lies in what the machine passes.
        obtain ⟨back, c, rfl⟩ : ∃ init c, back = init ++ [c] :=
          ⟨_, _, (List.dropLast_concat_getLast hback).symm⟩
        rw [← List.append_assoc] at hbs
        obtain ⟨rfl, -⟩ := List.append_inj' hbs rfl
        obtain ⟨s, stack, hfront, -⟩ := hpasses.split
        exact ⟨s, stack, hfront⟩
    | @number bs negative m hpasses hvalue hcomplete =>
        subst hbs
        obtain ⟨s, stack, hfront, -⟩ := hpasses.split
        exact ⟨s, stack, hfront⟩
  obtain ⟨s, stack, hfront⟩ := hpasses
  exact ⟨s, stack, hfront.run_ended n, atEnd_of_benign hfront.benign_right stack⟩

/-! ## The first byte -/

theorem head_ascii_intChars (i : Int) :
    ∃ b bs, ascii (intChars i) = b :: bs ∧ isBlankByte b = false ∧ b ≠ 0x5D := by
  have hdigits (n : Nat) : ∃ b bs, ascii (Nat.toDigits 10 n) = b :: bs ∧
      isBlankByte b = false ∧ b ≠ 0x5D := by
    have hall : ∀ m : Fin 10, isBlankByte (digitByte m) = false ∧ digitByte m ≠ 0x5D := by decide
    induction n using Nat.strongRecOn with
    | ind n ih =>
        by_cases h : n < 10
        · exact ⟨digitByte n, [], ascii_toDigits_of_lt h, hall ⟨n, h⟩⟩
        · obtain ⟨b, bs, hbs, hb⟩ := ih (n / 10) (by omega)
          exact ⟨b, bs ++ [digitByte (n % 10)],
            by rw [ascii_toDigits_of_le (by omega), hbs, List.cons_append], hb⟩
  cases i with
  | ofNat n => exact hdigits n
  | negSucc n => exact ⟨0x2D, ascii (Nat.toDigits 10 (n + 1)), rfl, by decide, by decide⟩

/-- A document starts neither with a blank nor with the end of an array. -/
theorem head_render (h : Integral v) :
    ∃ b bs, render v = b :: bs ∧ isBlankByte b = false ∧ b ≠ 0x5D := by
  cases v with
  | null => exact ⟨_, _, rfl, by decide, by decide⟩
  | bool t => cases t <;> exact ⟨_, _, rfl, by decide, by decide⟩
  | int i => exact head_ascii_intChars i
  | float f => exact h.elim
  | str t => exact ⟨_, _, rfl, by decide, by decide⟩
  | arr xs => exact ⟨_, _, rfl, by decide, by decide⟩
  | obj fs => exact ⟨_, _, rfl, by decide, by decide⟩

theorem skipBlanks_of_head (h : isBlankByte b = false) : skipBlanks (b :: bs) = b :: bs := by
  simp [skipBlanks, h]

theorem skipBlanks_render (h : Integral v) (rest : Bytes) :
    skipBlanks (render v ++ rest) = render v ++ rest := by
  obtain ⟨b, bs, hbs, hblank, -⟩ := head_render h
  rw [hbs, List.cons_append, skipBlanks_of_head hblank]

theorem read_render (h : Readable v) : read (render v) = .ok v := by
  rw [read]
  rcases run_render h 0 with hrun | ⟨s, stack, hrun, hend, -⟩
  · rw [hrun]
    rfl
  · rw [hrun]
    simp only [hend]

end WebResource.Json
