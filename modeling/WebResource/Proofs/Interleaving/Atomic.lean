import WebResource.Proofs.Outcome

namespace WebResource

/-!
# Programs that act at once

A program shares a state with others. Some of what it asks for is about what counts of that state, the
rest neither reads nor changes it. A program acts at once if what it does is what it would do if it ran
alone at the moment of the last question that counts: until then it changes nothing, and after that it
is settled.
-/

/-- A state that programs share, with the answers to what they ask for. -/
structure Shared (Q : Type) (R : Q → Type) (S V : Type) where
  answer : (q : Q) → Act S (R q)
  /-- What counts of the state. -/
  view : S → V
  /-- Which questions are about what counts. -/
  counts : Q → Bool
  /-- The questions of which the laws are known. -/
  proper : Q → Prop
  result_congr : ∀ q s s', proper q → view s = view s' →
    (Act.outcome (answer q) s).1 = (Act.outcome (answer q) s').1
  view_congr : ∀ q s s', proper q → view s = view s' →
    view (Act.outcome (answer q) s).2 = view (Act.outcome (answer q) s').2
  result_other : ∀ q s s', proper q → counts q = false →
    (Act.outcome (answer q) s).1 = (Act.outcome (answer q) s').1
  view_other : ∀ q s, proper q → counts q = false → view (Act.outcome (answer q) s).2 = view s

namespace Shared

variable {Q S V α β : Type} {R : Q → Type} (w : Shared Q R S V)

/-! ## Outcomes -/

/-- The answer to a question, and the state after it. -/
def reply (q : Q) (s : S) : Except Payload (R q) × S := Act.outcome (w.answer q) s

/-- What comes of a program that runs alone. -/
def alone (x : Prog Q R α) (s : S) : Except Payload α × S := Act.outcome (x.interpret w.answer) s

@[simp] theorem alone_done (a : α) (s : S) : w.alone (.done a) s = (.ok a, s) := rfl

@[simp] theorem alone_panic (p : Payload) (s : S) :
    w.alone (.panic p : Prog Q R α) s = (.error p, s) := rfl

@[simp] theorem alone_log (r : LogRecord) (x : Prog Q R α) (s : S) :
    w.alone (.log r x) s = w.alone x s := rfl

@[simp] theorem alone_ask (q : Q) (k : Except Payload (R q) → Prog Q R α) (s : S) :
    w.alone (.ask q k) s = w.alone (k (w.reply q s).1) (w.reply q s).2 := by
  rw [alone, Prog.interpret, Act.outcome_bind, Act.outcome_attempt]
  rfl

theorem alone_bind (x : Prog Q R α) (f : α → Prog Q R β) (s : S) :
    w.alone (x.bind f) s = Act.continueWith (w.alone x s) fun a => w.alone (f a) := by
  rw [alone, Prog.interpret_bind, Act.outcome_bind]
  rfl

theorem alone_attempt (x : Prog Q R α) (s : S) :
    w.alone x.attempt s = (.ok (w.alone x s).1, (w.alone x s).2) := by
  rw [alone, Prog.interpret_attempt, Act.outcome_attempt]
  rfl

/-- Outcomes with the same result that leave the same behind of what counts. -/
structure Same (o o' : Except Payload α × S) : Prop where
  result : o.1 = o'.1
  view : w.view o.2 = w.view o'.2

/-- A program that asks only proper questions, given the answers it gets. -/
def Proper : Prog Q R α → Prop
  | .done _ => True
  | .panic _ => True
  | .log _ x => Proper x
  | .ask q k => w.proper q ∧ ∀ s, Proper (k (w.reply q s).1)

/-- A program that asks for nothing that counts. -/
def Silent (x : Prog Q R α) : Prop := Prog.Asks (fun q => w.proper q ∧ w.counts q = false) x

/-- A program that asks for nothing that counts any more, and ends with a certain result. -/
def Settled (a : Except Payload α) : Prog Q R α → Prop
  | .done b => a = .ok b
  | .panic p => a = .error p
  | .log _ x => Settled a x
  | .ask q k => (w.proper q ∧ w.counts q = false) ∧ ∀ s, Settled a (k (w.reply q s).1)

/-- A program that does what is specified for the moment of its last question that counts. A question
that counts either is the last one, or it changes nothing that counts. -/
def Atomic (spec : S → Except Payload α × S) : Prog Q R α → Prop
  | .done a => ∀ s, w.Same (spec s) (.ok a, s)
  | .panic p => ∀ s, w.Same (spec s) (.error p, s)
  | .log _ x => Atomic spec x
  | .ask q k => w.proper q ∧
    if w.counts q then ∀ s,
      (w.Settled (spec s).1 (k (w.reply q s).1) ∧ w.view (w.reply q s).2 = w.view (spec s).2) ∨
        (w.view (w.reply q s).2 = w.view s ∧ Atomic spec (k (w.reply q s).1))
    else ∀ s, Atomic spec (k (w.reply q s).1)

/-- A program that does what it would do if it ran alone at the moment of its last question that
counts. -/
def ActsAtOnce (x : Prog Q R α) : Prop := w.Atomic (w.alone x) x

/-- A program that has still to act, or has acted. -/
def Ready (spec : S → Except Payload α × S) (x : Prog Q R α) : Prop :=
  w.Atomic spec x ∨ ∃ a, w.Settled a x

variable {w}

/-! ## Outcomes that are the same -/

section Same

variable {o o' o'' : Except Payload α × S} {x : Prog Q R α} {a : Except Payload α} {s s' : S}

theorem Same.rfl : w.Same o o := ⟨Eq.refl _, Eq.refl _⟩

theorem Same.symm (h : w.Same o o') : w.Same o' o := ⟨h.result.symm, h.view.symm⟩

theorem Same.trans (h : w.Same o o') (h' : w.Same o' o'') : w.Same o o'' :=
  ⟨h.result.trans h'.result, h.view.trans h'.view⟩

theorem Same.of_view (h : w.view s = w.view s') : w.Same (a, s) (a, s') := ⟨Eq.refl _, h⟩

theorem Proper.alone_congr (hx : w.Proper x) (h : w.view s = w.view s') :
    w.Same (w.alone x s) (w.alone x s') := by
  induction x generalizing s s' with
  | done a => exact .of_view h
  | panic p => exact .of_view h
  | log r x ih => exact ih hx h
  | ask q k ih =>
      have hresult : (w.reply q s).1 = (w.reply q s').1 := w.result_congr q s s' hx.1 h
      have hview : w.view (w.reply q s).2 = w.view (w.reply q s').2 := w.view_congr q s s' hx.1 h
      rw [alone_ask, alone_ask, ← hresult]
      exact ih _ (hx.2 s) hview

theorem Proper.of_asks (h : Prog.Asks w.proper x) : w.Proper x := by
  induction h with
  | done a => trivial
  | panic p => trivial
  | log r h ih => exact ih
  | ask hq h ih => exact ⟨hq, fun s => ih _⟩

theorem Proper.bind (h : w.Proper x) {f : α → Prog Q R β} (hf : ∀ a, w.Proper (f a)) :
    w.Proper (x.bind f) := by
  induction x with
  | done a => exact hf a
  | panic p => trivial
  | log r x ih => exact ih h
  | ask q k ih => exact ⟨h.1, fun s => ih _ (h.2 s)⟩

theorem Proper.attempt (h : w.Proper x) : w.Proper x.attempt := by
  induction x with
  | done a => trivial
  | panic p => trivial
  | log r x ih => exact ih h
  | ask q k ih => exact ⟨h.1, fun s => ih _ (h.2 s)⟩

theorem continueWith_congr {f : α → Prog Q R β} (hf : ∀ a, w.Proper (f a)) (h : w.Same o o') :
    w.Same (Act.continueWith o fun a => w.alone (f a)) (Act.continueWith o' fun a => w.alone (f a)) := by
  obtain ⟨a, s⟩ := o
  obtain ⟨a', s'⟩ := o'
  obtain rfl : a = a' := h.result
  cases a with
  | ok a => exact (hf a).alone_congr h.view
  | error p => exact .of_view h.view

end Same

/-! ## Silent and settled programs -/

variable {x : Prog Q R α} {a : Except Payload α} {spec spec' : S → Except Payload α × S} {q : Q}
  {k : Except Payload (R q) → Prog Q R α}

theorem Silent.proper (h : w.Silent x) : w.Proper x :=
  .of_asks (Prog.Asks.mono (fun _ hq => hq.1) h)

theorem Silent.view_alone (h : w.Silent x) (s : S) : w.view (w.alone x s).2 = w.view s := by
  induction h generalizing s with
  | done a => rfl
  | panic p => rfl
  | log r h ih => exact ih s
  | ask hq h ih =>
      rw [alone_ask]
      exact (ih _ _).trans (w.view_other _ s hq.1 hq.2)

theorem Silent.settled (h : w.Silent x) (s : S) : w.Settled (w.alone x s).1 x := by
  induction h generalizing s with
  | done a => rfl
  | panic p => rfl
  | log r h ih => exact ih s
  | @ask q k hq h ih =>
      refine ⟨hq, fun s' => ?_⟩
      have hresult : (w.reply q s').1 = (w.reply q s).1 := w.result_other q s' s hq.1 hq.2
      rw [alone_ask, hresult]
      exact ih _ _

theorem Settled.of_ended {b : Except Payload α} (h : w.Settled a (.ofExcept b)) : a = b := by
  cases b with
  | ok b => exact h
  | error p => exact h

theorem Settled.bind (h : w.Settled a x) {f : α → Prog Q R β} (hf : ∀ a, w.Silent (f a)) (s : S) :
    w.Settled (Act.continueWith (a, s) fun a => w.alone (f a)).1 (x.bind f) := by
  induction x with
  | done b =>
      obtain rfl : a = .ok b := h
      exact (hf b).settled s
  | panic p =>
      obtain rfl : a = .error p := h
      rfl
  | log r x ih => exact ih h
  | ask q k ih => exact ⟨h.1, fun s' => ih _ (h.2 s')⟩

theorem Settled.attempt (h : w.Settled a x) : w.Settled (.ok a) x.attempt := by
  induction x with
  | done b => exact congrArg Except.ok h
  | panic p => exact congrArg Except.ok h
  | log r x ih => exact ih h
  | ask q k ih => exact ⟨h.1, fun s' => ih _ (h.2 s')⟩

/-! ## What a program that is to act at once asks for -/

theorem atomic_ask_of_other (hq : w.counts q = false) :
    w.Atomic spec (.ask q k) ↔ w.proper q ∧ ∀ s, w.Atomic spec (k (w.reply q s).1) := by
  rw [Atomic, if_neg (by rw [hq]; exact Bool.false_ne_true)]

theorem atomic_ask_of_counts (hq : w.counts q = true) :
    w.Atomic spec (.ask q k) ↔ w.proper q ∧ ∀ s,
      (w.Settled (spec s).1 (k (w.reply q s).1) ∧ w.view (w.reply q s).2 = w.view (spec s).2) ∨
        (w.view (w.reply q s).2 = w.view s ∧ w.Atomic spec (k (w.reply q s).1)) := by
  rw [Atomic, if_pos hq]

theorem Atomic.of_ended {a : Except Payload α} (h : w.Atomic spec (.ofExcept a)) (s : S) :
    w.Same (spec s) (a, s) := by
  cases a with
  | ok a => exact h s
  | error p => exact h s

theorem Ready.next (h : w.Ready spec (.ask q k)) (s : S) : w.Ready spec (k (w.reply q s).1) := by
  rcases h with hatomic | ⟨a, hsettled⟩
  · cases hq : w.counts q with
    | false => exact Or.inl (((atomic_ask_of_other hq).mp hatomic).2 s)
    | true =>
        rcases ((atomic_ask_of_counts hq).mp hatomic).2 s with ⟨hsettled, -⟩ | ⟨-, hatomic⟩
        · exact Or.inr ⟨_, hsettled⟩
        · exact Or.inl hatomic
  · exact Or.inr ⟨a, hsettled.2 s⟩

theorem Ready.proper (h : w.Ready spec x) : w.Proper x := by
  induction x with
  | done a => trivial
  | panic p => trivial
  | log r x ih => exact ih h
  | ask q k ih =>
      refine ⟨?_, fun s => ih _ (h.next s)⟩
      rcases h with hatomic | ⟨a, hsettled⟩
      · exact hatomic.1
      · exact hsettled.1.1

/-- Another program may ask for the same first, if what follows there settles and acts where what
follows here does. -/
theorem Atomic.ask_of {spec' : S → Except Payload β × S} {k' : Except Payload (R q) → Prog Q R β}
    (h : w.Atomic spec (.ask q k)) (hview : ∀ s, w.view (spec s).2 = w.view (spec' s).2)
    (hsettled : ∀ s a, w.Settled (spec s).1 (k a) → w.Settled (spec' s).1 (k' a))
    (hatomic : ∀ a, w.Atomic spec (k a) → w.Atomic spec' (k' a)) : w.Atomic spec' (.ask q k') := by
  cases hq : w.counts q with
  | false =>
      rw [atomic_ask_of_other hq] at h ⊢
      exact ⟨h.1, fun s => hatomic _ (h.2 s)⟩
  | true =>
      rw [atomic_ask_of_counts hq] at h ⊢
      refine ⟨h.1, fun s => ?_⟩
      rcases h.2 s with ⟨hlast, hdone⟩ | ⟨hkept, hlater⟩
      · exact Or.inl ⟨hsettled s _ hlast, hdone.trans (hview s)⟩
      · exact Or.inr ⟨hkept, hatomic _ hlater⟩

theorem Atomic.congr (h : w.Atomic spec x) (hspec : ∀ s, w.Same (spec s) (spec' s)) :
    w.Atomic spec' x := by
  induction x with
  | done a => exact fun s => (hspec s).symm.trans (h s)
  | panic p => exact fun s => (hspec s).symm.trans (h s)
  | log r x ih => exact ih h
  | ask q k ih =>
      apply Atomic.ask_of h
      · intro s
        exact (hspec s).view
      · intro s a hsettled
        rw [← (hspec s).result]
        exact hsettled
      · intro a
        exact ih a

/-! ## Programs that act at once -/

namespace ActsAtOnce

theorem proper (h : w.ActsAtOnce x) : w.Proper x := Ready.proper (Or.inl h)

/-- What is asked for first may be nothing that counts. -/
theorem of_other (hproper : w.proper q) (hq : w.counts q = false)
    (h : ∀ s, w.ActsAtOnce (k (w.reply q s).1)) : w.ActsAtOnce (.ask q k) := by
  rw [ActsAtOnce, atomic_ask_of_other hq]
  refine ⟨hproper, fun s => (h s).congr fun s' => ?_⟩
  have hresult : (w.reply q s').1 = (w.reply q s).1 := w.result_other q s' s hproper hq
  rw [alone_ask, hresult]
  exact (h s).proper.alone_congr (w.view_other q s' hproper hq).symm

theorem of_silent (h : w.Silent x) : w.ActsAtOnce x := by
  induction h with
  | done a => exact fun s => .rfl
  | panic p => exact fun s => .rfl
  | log r h ih => exact ih
  | ask hq h ih => exact of_other hq.1 hq.2 fun s => ih _

/-- A program that goes on silently behind its only question that counts. -/
theorem of_last (hproper : w.proper q) (hq : w.counts q = true)
    (h : ∀ s, w.Silent (k (w.reply q s).1)) : w.ActsAtOnce (.ask q k) := by
  rw [ActsAtOnce, atomic_ask_of_counts hq]
  refine ⟨hproper, fun s => Or.inl ⟨?_, ?_⟩⟩
  · rw [alone_ask]
    exact (h s).settled (w.reply q s).2
  · rw [alone_ask]
    exact ((h s).view_alone (w.reply q s).2).symm

/-- A program that asks whether it may go on, and is refused or goes on. Where it is refused it would
have failed in the same way without asking. -/
theorem of_check (hproper : w.proper q) (hq : w.counts q = true)
    (hview : ∀ s, w.view (w.reply q s).2 = w.view s) {rest : Prog Q R α} (hrest : w.ActsAtOnce rest)
    (h : ∀ s, (∃ a, k (w.reply q s).1 = .done a ∧ w.Same (w.alone rest s) (.ok a, s)) ∨
      k (w.reply q s).1 = rest) : w.ActsAtOnce (.ask q k) := by
  have hspec (s : S) : w.Same (w.alone rest s) (w.alone (.ask q k) s) := by
    rw [alone_ask]
    rcases h s with ⟨a, hk, hsame⟩ | hk
    · rw [hk, alone_done]
      exact hsame.trans (.of_view (hview s).symm)
    · rw [hk]
      exact hrest.proper.alone_congr (hview s).symm
  rw [ActsAtOnce, atomic_ask_of_counts hq]
  refine ⟨hproper, fun s => ?_⟩
  rcases h s with ⟨a, hk, -⟩ | hk
  · refine Or.inl ⟨?_, ?_⟩
    · rw [alone_ask, hk]
      rfl
    · rw [alone_ask, hk]
      rfl
  · rw [hk]
    exact Or.inr ⟨hview s, Atomic.congr hrest hspec⟩

end ActsAtOnce

theorem view_continueWith {f : α → Prog Q R β} (hf : ∀ a, w.Silent (f a)) (o : Except Payload α × S) :
    w.view (Act.continueWith o fun a => w.alone (f a)).2 = w.view o.2 := by
  obtain ⟨a | a, s⟩ := o
  · rfl
  · exact (hf a).view_alone s

theorem Atomic.bind (h : w.Atomic spec x) {f : α → Prog Q R β} (hf : ∀ a, w.Silent (f a)) :
    w.Atomic (fun s => Act.continueWith (spec s) fun a => w.alone (f a)) (x.bind f) := by
  induction x with
  | done a =>
      refine (ActsAtOnce.of_silent (hf a)).congr fun s => ?_
      exact (continueWith_congr (fun a => (hf a).proper) (h s)).symm
  | panic p => exact fun s => continueWith_congr (fun a => (hf a).proper) (h s)
  | log r x ih => exact ih h
  | ask q k ih =>
      apply Atomic.ask_of h
      · intro s
        exact (view_continueWith hf (spec s)).symm
      · intro s a hsettled
        exact hsettled.bind hf (spec s).2
      · intro a
        exact ih a

theorem Atomic.attempt (h : w.Atomic spec x) :
    w.Atomic (fun s => (.ok (spec s).1, (spec s).2)) x.attempt := by
  induction x with
  | done a => exact fun s => ⟨congrArg Except.ok (h s).result, (h s).view⟩
  | panic p => exact fun s => ⟨congrArg Except.ok (h s).result, (h s).view⟩
  | log r x ih => exact ih h
  | ask q k ih =>
      apply Atomic.ask_of h
      · intro s
        rfl
      · intro s a hsettled
        exact hsettled.attempt
      · intro a
        exact ih a

theorem ActsAtOnce.bind (h : w.ActsAtOnce x) {f : α → Prog Q R β} (hf : ∀ a, w.Silent (f a)) :
    w.ActsAtOnce (x.bind f) := by
  refine (Atomic.bind h hf).congr fun s => ?_
  rw [alone_bind]
  exact .rfl

theorem ActsAtOnce.attempt (h : w.ActsAtOnce x) : w.ActsAtOnce x.attempt := by
  refine (Atomic.attempt h).congr fun s => ?_
  rw [alone_attempt]
  exact .rfl

end Shared

end WebResource
