import Mathlib.Data.List.Infix
import WebResource.Proofs.Context.Waiting

namespace WebResource.Context

/-!
# Trees of contexts

Contexts that are derived from each other while handles are used and time passes. Each context carries
the signals and the earliest deadline of its whole lineage, so the reason why it is done is told by
the lineage: by the handles that came with contexts on it, and by the timeouts that were set on it.
-/

/-- How a context is derived from another one. -/
inductive Derivation where
  | value (kind : String) (v : Json)
  | param (name value : String)
  | cancel
  | timeout (d : Duration)

/-- What happens in a tree of contexts. They have numbers in the order in which they are derived, the
background has zero, and a handle has the number of the context that it came with. -/
inductive Event where
  | derive (parent : Nat) (how : Derivation)
  | cancel (context : Nat)
  | pass (d : Duration)

/-! ## The contexts -/

/-- A context, and the signal of the handle that it came with. -/
structure Member where
  context : Context
  signal : Option Nat

def Derivation.apply (how : Derivation) (c : Context) (t : Timeline) : Member × Timeline :=
  match how with
  | .value kind v => (⟨c.withValue kind v, none⟩, t)
  | .param name v => (⟨c.withParam name v, none⟩, t)
  | .cancel =>
    let (c, signal, t) := c.withCancel t
    (⟨c, some signal⟩, t)
  | .timeout d => (⟨c.withTimeout t d, none⟩, t)

structure Tree where
  time : Timeline
  members : List Member

namespace Tree

def background : Tree := ⟨.start, [⟨.background, none⟩]⟩

def context? (w : Tree) (i : Nat) : Option Context := w.members[i]?.map Member.context

def signal? (w : Tree) (i : Nat) : Option Nat := w.members[i]?.bind Member.signal

/-- Only a context that exists can be derived from, and only a handle that exists can be used. -/
def step (w : Tree) : Event → Tree
  | .derive i how =>
    match w.members[i]? with
    | some m =>
      let (child, t) := how.apply m.context w.time
      ⟨t, w.members ++ [child]⟩
    | none => w
  | .cancel i =>
    match w.signal? i with
    | some signal => { w with time := w.time.fire signal }
    | none => w
  | .pass d => { w with time := w.time.advance d }

def run (w : Tree) (events : List Event) : Tree := events.foldl step w

end Tree

/-! ## What is known of them -/

/-- The derivation of a context with a number, at a moment. -/
structure Link where
  context : Nat
  how : Derivation
  moment : Nat

/-- The derivations from the background to a context, the last one first. -/
abbrev Lineage := List Link

/-- The lineages of all contexts, the numbers of the handles that have been used, and the time. -/
structure History where
  now : Nat
  lineages : List Lineage
  cancelled : List Nat

namespace History

def background : History := ⟨0, [[]], []⟩

def step (h : History) : Event → History
  | .derive i how =>
    match h.lineages[i]? with
    | some l => { h with lineages := h.lineages ++ [⟨h.lineages.length, how, h.now⟩ :: l] }
    | none => h
  | .cancel i => if i < h.lineages.length then { h with cancelled := i :: h.cancelled } else h
  | .pass d => { h with now := h.now + d.nanos }

def run (h : History) (events : List Event) : History := events.foldl step h

/-- A handle that came with a context on the lineage has been used. -/
def Canceled (h : History) (l : Lineage) : Prop :=
  ∃ k ∈ l, k.how = .cancel ∧ k.context ∈ h.cancelled

/-- A timeout that was set on the lineage is over. -/
def Expired (h : History) (l : Lineage) : Prop :=
  ∃ k ∈ l, ∃ d, k.how = .timeout d ∧ k.moment + d.nanos ≤ h.now

end History

/-! ## What a context carries -/

variable {w : Tree} {h : History} {c : Context} {l : Lineage} {m : Member} {how : Derivation}
  {t t' : Timeline} {i j : Nat}

/-- The signals and the deadline of a context are those of its lineage, on which it comes last. -/
structure Carries (w : Tree) (i : Nat) (c : Context) (l : Lineage) : Prop where
  signals : c.signals = l.filterMap fun k => w.signal? k.context
  deadline : ∀ n, (∃ d, c.deadline = some d ∧ d ≤ n) ↔
    ∃ k ∈ l, ∃ d, k.how = .timeout d ∧ k.moment + d.nanos ≤ n
  handles : ∀ k ∈ l, (w.signal? k.context).isSome ↔ k.how = .cancel
  own : ∀ k ∈ l.head?, k.context = i
  before : ∀ k ∈ l.tail, k.context < i

theorem Carries.le (hc : Carries w i c l) {k : Link} (hk : k ∈ l) : k.context ≤ i := by
  cases l with
  | nil => cases hk
  | cons k' l =>
      rcases List.mem_cons.mp hk with rfl | hk
      · exact Nat.le_of_eq (hc.own k rfl)
      · exact Nat.le_of_lt (hc.before k hk)

theorem Carries.congr {w' : Tree} (hc : Carries w i c l)
    (hsignal : ∀ j ≤ i, w'.signal? j = w.signal? j) : Carries w' i c l := by
  have hlinks : ∀ k ∈ l, w'.signal? k.context = w.signal? k.context :=
    fun k hk => hsignal _ (hc.le hk)
  constructor
  · rw [hc.signals]
    exact List.filterMap_congr fun k hk => (hlinks k hk).symm
  · exact hc.deadline
  · intro k hk
    rw [hlinks k hk]
    exact hc.handles k hk
  · exact hc.own
  · exact hc.before

/-- What a derivation adds to a context and to the time line. -/
structure Derives (how : Derivation) (c : Context) (t : Timeline) (m : Member) (t' : Timeline) :
    Prop where
  signals : m.context.signals = m.signal.toList ++ c.signals
  deadline : ∀ n, (∃ d, m.context.deadline = some d ∧ d ≤ n) ↔
    (∃ d, how = .timeout d ∧ t.now + d.nanos ≤ n) ∨ ∃ d, c.deadline = some d ∧ d ≤ n
  handle : m.signal.isSome ↔ how = .cancel
  fresh : ∀ s ∈ m.signal, s = t.nextSignal ∧ s < t'.nextSignal
  next : t.nextSignal ≤ t'.nextSignal
  now : t'.now = t.now
  firings : t'.firings = t.firings

/-- Of two deadlines the earlier one counts, so one of them is over exactly if it is. -/
theorem withTimeout_deadline (c : Context) (t : Timeline) (d : Duration) (n : Nat) :
    (∃ m, (c.withTimeout t d).deadline = some m ∧ m ≤ n) ↔
      t.now + d.nanos ≤ n ∨ ∃ m, c.deadline = some m ∧ m ≤ n := by
  cases hdeadline : c.deadline with
  | none => simp [withTimeout, hdeadline]
  | some current =>
      simp only [withTimeout, hdeadline, Option.some.injEq, exists_eq_left']
      split <;> omega

theorem derives_apply (how : Derivation) (c : Context) (t : Timeline) :
    Derives how c t (how.apply c t).1 (how.apply c t).2 := by
  cases how with
  | value kind v => constructor <;> simp [Derivation.apply, withValue]
  | param name v => constructor <;> simp [Derivation.apply, withParam]
  | cancel => constructor <;> simp [Derivation.apply, withCancel]
  | timeout d =>
      refine ⟨rfl, fun n => ?_, by simp [Derivation.apply], nofun, Nat.le_refl _, rfl, rfl⟩
      rw [Derivation.apply, withTimeout_deadline]
      simp

namespace Tree

/-- A tree with one more context, at a later moment. -/
def add (w : Tree) (m : Member) (t : Timeline) : Tree := ⟨t, w.members ++ [m]⟩

theorem getElem?_add (w : Tree) (m : Member) (t : Timeline) (i : Nat) :
    (w.add m t).members[i]? = if i = w.members.length then some m else w.members[i]? := by
  simp only [add, List.getElem?_append]
  split
  · next hi => rw [if_neg (Nat.ne_of_lt hi)]
  · next hi =>
      split
      · next heq => simp [heq]
      · next hne =>
          have hlt : w.members.length < i := Nat.lt_of_le_of_ne (Nat.le_of_not_lt hi) (Ne.symm hne)
          rw [List.getElem?_eq_none (Nat.le_of_lt hlt), List.getElem?_eq_none (by simp; omega)]

theorem signal?_add (w : Tree) (m : Member) (t : Timeline) (i : Nat) :
    (w.add m t).signal? i = if i = w.members.length then m.signal else w.signal? i := by
  rw [signal?, getElem?_add]
  split <;> rfl

theorem context?_add (w : Tree) (m : Member) (t : Timeline) (i : Nat) :
    (w.add m t).context? i = if i = w.members.length then some m.context else w.context? i := by
  rw [context?, getElem?_add]
  split <;> rfl

theorem lt_of_context? (hc : w.context? i = some c) : i < w.members.length := by
  obtain ⟨m, hm, -⟩ := Option.map_eq_some_iff.mp hc
  exact (List.getElem?_eq_some_iff.mp hm).1

end Tree

theorem Carries.add (hc : Carries w i c l) (hi : i < w.members.length) (m : Member) (t : Timeline) :
    Carries (w.add m t) i c l := by
  apply hc.congr
  intro j hj
  rw [Tree.signal?_add, if_neg (Nat.ne_of_lt (Nat.lt_of_le_of_lt hj hi))]

/-- A context that is derived carries what its parent does, and what its derivation adds. -/
theorem Carries.derive (hc : Carries w i c l) (hi : i < w.members.length)
    (hd : Derives how c w.time m t) :
    Carries (w.add m t) w.members.length m.context (⟨w.members.length, how, w.time.now⟩ :: l) := by
  have hparent := hc.add hi m t
  have hself : (w.add m t).signal? w.members.length = m.signal := by
    rw [Tree.signal?_add, if_pos rfl]
  constructor
  · rw [hd.signals, hparent.signals]
    simp only [List.filterMap_cons, hself]
    cases m.signal <;> rfl
  · intro n
    rw [hd.deadline, hc.deadline]
    simp only [List.mem_cons, exists_eq_or_imp]
  · intro k hk
    rcases List.mem_cons.mp hk with rfl | hk
    · rw [hself]
      exact hd.handle
    · exact hparent.handles k hk
  · intro k hk
    obtain rfl := Option.some.inj hk
    rfl
  · intro k hk
    exact Nat.lt_of_le_of_lt (hc.le hk) hi

/-! ## What a tree carries -/

/-- All contexts carry what a history says, and exactly the handles that it names have fired. -/
structure Tracks (w : Tree) (h : History) : Prop where
  now : w.time.now = h.now
  length : w.members.length = h.lineages.length
  carries : ∀ {i c l}, w.context? i = some c → h.lineages[i]? = some l → Carries w i c l
  known : ∀ {i s}, w.signal? i = some s → s < w.time.nextSignal
  apart : ∀ {i j s}, w.signal? i = some s → w.signal? j = some s → i = j
  past : ∀ f ∈ w.time.firings, f.2 ≤ w.time.now
  fired : ∀ s, (∃ f ∈ w.time.firings, f.1 = s) ↔ ∃ i ∈ h.cancelled, w.signal? i = some s
  used : ∀ i ∈ h.cancelled, i < h.lineages.length

theorem tracks_background : Tracks .background .background := by
  have hsignal (i : Nat) : Tree.background.signal? i = none := by
    cases i <;> rfl
  constructor
  · rfl
  · rfl
  · intro i c l hc hl
    cases i with
    | zero =>
        cases hc
        cases hl
        constructor <;> simp [Context.background]
    | succ i => cases hc
  · intro i s hs
    rw [hsignal] at hs
    cases hs
  · intro i j s hs
    rw [hsignal] at hs
    cases hs
  · nofun
  · intro s
    simp [Tree.background, Timeline.start, History.background]
  · nofun

/-- A handle that is used fires its signal. A number without a handle fires nothing. -/
theorem Tracks.cancel (hw : Tracks w h) (hi : i < h.lineages.length) :
    Tracks (w.step (.cancel i)) { h with cancelled := i :: h.cancelled } := by
  have hused : ∀ j ∈ i :: h.cancelled, j < h.lineages.length := by
    intro j hj
    rcases List.mem_cons.mp hj with rfl | hj
    · exact hi
    · exact hw.used j hj
  cases hs : w.signal? i with
  | none =>
      simp only [Tree.step, hs]
      refine ⟨hw.now, hw.length, hw.carries, hw.known, hw.apart, hw.past, fun s => ?_, hused⟩
      rw [hw.fired]
      simp [hs]
  | some signal =>
      simp only [Tree.step, hs]
      refine ⟨hw.now, hw.length, fun hc hl => (hw.carries hc hl).congr fun _ _ => rfl, hw.known,
        hw.apart, ?_, fun s => ?_, hused⟩
      · intro f hf
        rcases List.mem_cons.mp hf with rfl | hf
        · exact Nat.le_refl _
        · exact hw.past f hf
      · simp only [Timeline.fire, Timeline.fireAfter, List.mem_cons, exists_eq_or_imp]
        refine or_congr ?_ (hw.fired s)
        exact Option.some_inj.symm.trans (Eq.congr_left hs.symm)

theorem Tracks.pass (hw : Tracks w h) (d : Duration) :
    Tracks { w with time := w.time.advance d } { h with now := h.now + d.nanos } where
  now := congrArg (· + d.nanos) hw.now
  length := hw.length
  carries hc hl := (hw.carries hc hl).congr fun _ _ => rfl
  known := hw.known
  apart := hw.apart
  past f hf := Nat.le_trans (hw.past f hf) (Nat.le_add_right _ _)
  fired := hw.fired
  used := hw.used

theorem Tracks.derive (hw : Tracks w h) (hm : w.members[i]? = some m) (hl : h.lineages[i]? = some l)
    {child : Member} (hd : Derives how m.context w.time child t) :
    Tracks (w.add child t)
      { h with lineages := h.lineages ++ [⟨h.lineages.length, how, h.now⟩ :: l] } := by
  have hc : w.context? i = some m.context := by rw [Tree.context?, hm, Option.map_some]
  have hparent := hw.carries hc hl
  have hi := Tree.lt_of_context? hc
  have hsignal {j s : Nat} (hs : (w.add child t).signal? j = some s) :
      j = w.members.length ∧ child.signal = some s ∨ w.signal? j = some s := by
    rw [Tree.signal?_add] at hs
    split at hs
    · next hj => exact Or.inl ⟨hj, hs⟩
    · exact Or.inr hs
  have hnew {s : Nat} (hs : child.signal = some s) (j : Nat) : w.signal? j ≠ some s := by
    intro hj
    have hlt := hw.known hj
    rw [(hd.fresh s hs).1] at hlt
    exact Nat.lt_irrefl _ hlt
  constructor
  · exact hd.now.trans hw.now
  · simp only [Tree.add, List.length_append, hw.length, List.length_singleton]
  · intro j c l' hc' hl'
    rw [Tree.context?_add] at hc'
    split at hc'
    · next hj =>
        subst hj
        obtain rfl := Option.some.inj hc'
        rw [List.getElem?_append_right (Nat.le_of_eq hw.length.symm), hw.length, Nat.sub_self] at hl'
        obtain rfl := Option.some.inj hl'
        rw [← hw.length, ← hw.now]
        exact hparent.derive hi hd
    · have hj := Tree.lt_of_context? hc'
      rw [List.getElem?_append_left (hw.length ▸ hj)] at hl'
      exact (hw.carries hc' hl').add hj child t
  · intro j s hs
    rcases hsignal hs with ⟨-, hs⟩ | hs
    · exact (hd.fresh s hs).2
    · exact Nat.lt_of_lt_of_le (hw.known hs) hd.next
  · intro j j' s hs hs'
    rcases hsignal hs with ⟨hj, hnow⟩ | hold <;> rcases hsignal hs' with ⟨hj', hnow'⟩ | hold'
    · exact hj.trans hj'.symm
    · exact absurd hold' (hnew hnow j')
    · exact absurd hold (hnew hnow' j)
    · exact hw.apart hold hold'
  · intro f hf
    have hf' : f ∈ w.time.firings := hd.firings ▸ hf
    exact hd.now ▸ hw.past f hf'
  · intro s
    have hfirings : (w.add child t).time.firings = w.time.firings := hd.firings
    rw [hfirings, hw.fired s]
    refine exists_congr fun j => and_congr_right fun hj => ?_
    rw [Tree.signal?_add, if_neg (Nat.ne_of_lt (hw.length ▸ hw.used j hj))]
  · intro j hj
    rw [List.length_append]
    exact Nat.lt_of_lt_of_le (hw.used j hj) (Nat.le_add_right _ _)

/-- What happens keeps a tree and its history together. -/
theorem Tracks.step (hw : Tracks w h) (e : Event) : Tracks (w.step e) (h.step e) := by
  cases e with
  | derive i how =>
      cases hm : w.members[i]? with
      | none =>
          have hl : h.lineages[i]? = none := by
            rw [List.getElem?_eq_none_iff] at hm ⊢
            exact hw.length ▸ hm
          simpa only [Tree.step, History.step, hm, hl] using hw
      | some m =>
          have hi := (List.getElem?_eq_some_iff.mp hm).1
          have hl := List.getElem?_eq_getElem (hw.length ▸ hi)
          simp only [Tree.step, History.step, hm, hl]
          exact hw.derive hm hl (derives_apply how m.context w.time)
  | cancel i =>
      by_cases hi : i < h.lineages.length
      · rw [History.step, if_pos hi]
        exact hw.cancel hi
      · have hs : w.signal? i = none := by
          rw [Tree.signal?, List.getElem?_eq_none (hw.length ▸ Nat.le_of_not_lt hi), Option.bind_none]
        simpa only [Tree.step, History.step, hs, if_neg hi] using hw
  | pass d => exact hw.pass d

theorem Tracks.run (hw : Tracks w h) (events : List Event) : Tracks (w.run events) (h.run events) := by
  induction events generalizing w h with
  | nil => exact hw
  | cons e events ih => exact ih (hw.step e)

/-! ## Reasons -/

theorem hasFired_iff (hw : Tracks w h) (s : Nat) :
    w.time.hasFired s = true ↔ ∃ i ∈ h.cancelled, w.signal? i = some s := by
  rw [← hw.fired]
  simp only [Timeline.hasFired, List.any_eq_true, Bool.and_eq_true, beq_iff_eq, decide_eq_true_eq]
  refine exists_congr fun f => and_congr_right fun hf => ?_
  exact and_iff_left (hw.past f hf)

/-- A signal of a context has fired exactly if a handle on its lineage has been used. -/
theorem Tracks.canceled_iff (hw : Tracks w h) (hc : Carries w i c l) :
    c.signals.any w.time.hasFired = true ↔ h.Canceled l := by
  simp only [List.any_eq_true, hc.signals, List.mem_filterMap, hasFired_iff hw]
  constructor
  · rintro ⟨s, ⟨k, hk, hs⟩, j, hj, hs'⟩
    obtain rfl := hw.apart hs hs'
    exact ⟨k, hk, (hc.handles k hk).mp (Option.isSome_iff_exists.mpr ⟨s, hs⟩), hj⟩
  · rintro ⟨k, hk, hhow, hj⟩
    obtain ⟨s, hs⟩ := Option.isSome_iff_exists.mp ((hc.handles k hk).mpr hhow)
    exact ⟨s, ⟨k, hk, hs⟩, k.context, hj, hs⟩

theorem Tracks.expired_iff (hw : Tracks w h) (hc : Carries w i c l) :
    c.isExpired w.time = true ↔ h.Expired l := by
  rw [isExpired_iff, hc.deadline, hw.now]
  rfl

/-- The three reasons that a lineage can tell. -/
theorem Tracks.err_cases (hw : Tracks w h) (hc : Carries w i c l) :
    h.Canceled l ∧ c.err w.time = some .canceled ∨
      ¬h.Canceled l ∧ h.Expired l ∧ c.err w.time = some .deadlineExceeded ∨
      ¬h.Canceled l ∧ ¬h.Expired l ∧ c.err w.time = none := by
  rw [← hw.canceled_iff hc, ← hw.expired_iff hc, err]
  by_cases hcanceled : c.signals.any w.time.hasFired = true
  · exact Or.inl ⟨hcanceled, if_pos hcanceled⟩
  · rw [if_neg hcanceled]
    by_cases hexpired : c.isExpired w.time = true
    · exact Or.inr (Or.inl ⟨hcanceled, hexpired, if_pos hexpired⟩)
    · exact Or.inr (Or.inr ⟨hcanceled, hexpired, if_neg hexpired⟩)

/-- A lineage that tells the same before and after tells the same reason. -/
theorem Tracks.err_congr {w' : Tree} {h' : History} (hw : Tracks w h) (hc : Carries w i c l)
    (hw' : Tracks w' h') (hc' : Carries w' i c l) (hcanceled : h'.Canceled l ↔ h.Canceled l)
    (hexpired : h'.Expired l ↔ h.Expired l) : c.err w'.time = c.err w.time := by
  have hbefore := hw.err_cases hc
  have hafter := hw'.err_cases hc'
  rw [hcanceled, hexpired] at hafter
  rcases hbefore with ⟨hyes, herr⟩ | ⟨hno, hyes, herr⟩ | ⟨hno, hno', herr⟩ <;> simp_all

theorem Tracks.err_eq_canceled_iff (hw : Tracks w h) (hc : Carries w i c l) :
    c.err w.time = some .canceled ↔ h.Canceled l := by
  rcases hw.err_cases hc with ⟨hyes, herr⟩ | ⟨hno, -, herr⟩ | ⟨hno, -, herr⟩
  · exact iff_of_true herr hyes
  all_goals
    rw [herr]
    exact iff_of_false nofun hno

theorem Tracks.err_eq_deadlineExceeded_iff (hw : Tracks w h) (hc : Carries w i c l) :
    c.err w.time = some .deadlineExceeded ↔ ¬h.Canceled l ∧ h.Expired l := by
  rcases hw.err_cases hc with ⟨hyes, herr⟩ | ⟨hno, hyes, herr⟩ | ⟨-, hno, herr⟩
  · rw [herr]
    exact iff_of_false nofun fun h => h.1 hyes
  · exact iff_of_true herr ⟨hno, hyes⟩
  · rw [herr]
    exact iff_of_false nofun fun h => hno h.2

theorem Tracks.err_eq_none_iff (hw : Tracks w h) (hc : Carries w i c l) :
    c.err w.time = none ↔ ¬h.Canceled l ∧ ¬h.Expired l := by
  rcases hw.err_cases hc with ⟨hyes, herr⟩ | ⟨-, hyes, herr⟩ | ⟨hno, hno', herr⟩
  · rw [herr]
    exact iff_of_false nofun fun h => h.1 hyes
  · rw [herr]
    exact iff_of_false nofun fun h => h.2 hyes
  · exact iff_of_true herr ⟨hno, hno'⟩

/-! ## What stays -/

theorem context?_step (hc : w.context? i = some c) (e : Event) : (w.step e).context? i = some c := by
  cases e with
  | derive j how =>
      simp only [Tree.step]
      cases w.members[j]? with
      | none => exact hc
      | some m =>
          have hadd := Tree.context?_add w (how.apply m.context w.time).1
            (how.apply m.context w.time).2 i
          rw [if_neg (Nat.ne_of_lt (Tree.lt_of_context? hc))] at hadd
          exact hadd.trans hc
  | cancel j =>
      simp only [Tree.step]
      cases w.signal? j <;> exact hc
  | pass d => exact hc

theorem lineages_step (hl : h.lineages[i]? = some l) (e : Event) :
    (h.step e).lineages[i]? = some l := by
  cases e with
  | derive j how =>
      simp only [History.step]
      cases h.lineages[j]? with
      | none => exact hl
      | some l' =>
          have hi := (List.getElem?_eq_some_iff.mp hl).1
          exact (List.getElem?_append_left hi).trans hl
  | cancel j =>
      simp only [History.step]
      split <;> exact hl
  | pass d => exact hl

theorem canceled_step_of_cancel (hl : ∀ k ∈ l, k.context ≠ j) :
    (h.step (.cancel j)).Canceled l ↔ h.Canceled l := by
  rw [History.step]
  split
  · refine exists_congr fun k => and_congr_right fun hk => and_congr_right fun _ => ?_
    exact List.mem_cons.trans (or_iff_right (hl k hk))
  · rfl

theorem expired_step_of_cancel : (h.step (.cancel j)).Expired l ↔ h.Expired l := by
  rw [History.step]
  split <;> rfl

theorem canceled_step_of_derive : (h.step (.derive j how)).Canceled l ↔ h.Canceled l := by
  simp only [History.step]
  cases h.lineages[j]? <;> rfl

theorem expired_step_of_derive : (h.step (.derive j how)).Expired l ↔ h.Expired l := by
  simp only [History.step]
  cases h.lineages[j]? <;> rfl

/-- No event takes back what a lineage tells. -/
theorem done_step (hdone : h.Canceled l ∨ h.Expired l) (e : Event) :
    (h.step e).Canceled l ∨ (h.step e).Expired l := by
  cases e with
  | derive j how => rwa [canceled_step_of_derive, expired_step_of_derive]
  | cancel j =>
      rw [expired_step_of_cancel]
      refine hdone.imp_left ?_
      rintro ⟨k, hk, hhow, hmem⟩
      refine ⟨k, hk, hhow, ?_⟩
      rw [History.step]
      split
      · exact List.mem_cons_of_mem _ hmem
      · exact hmem
  | pass d =>
      refine hdone.imp_right ?_
      rintro ⟨k, hk, d', hhow, hle⟩
      exact ⟨k, hk, d', hhow, Nat.le_trans hle (Nat.le_add_right _ _)⟩

theorem context?_run (hc : w.context? i = some c) (events : List Event) :
    (w.run events).context? i = some c := by
  induction events generalizing w with
  | nil => exact hc
  | cons e events ih => exact ih (context?_step hc e)

theorem lineages_run (hl : h.lineages[i]? = some l) (events : List Event) :
    (h.run events).lineages[i]? = some l := by
  induction events generalizing h with
  | nil => exact hl
  | cons e events ih => exact ih (lineages_step hl e)

theorem done_run (hdone : h.Canceled l ∨ h.Expired l) (events : List Event) :
    (h.run events).Canceled l ∨ (h.run events).Expired l := by
  induction events generalizing h with
  | nil => exact hdone
  | cons e events ih => exact ih (done_step hdone e)

/-- The derivation of a context is on the lineage neither of an ancestor nor of a sibling. -/
theorem context_ne_of_related {l' : Lineage} (hij : i ≠ j) (hi : Carries w i c l) {c' : Context}
    (hj : Carries w j c' l') (hrelated : l <:+ l'.tail ∨ l.tail = l'.tail) :
    ∀ k ∈ l, k.context ≠ j := by
  intro k hk
  rcases hrelated with hancestor | hsibling
  · exact Nat.ne_of_lt (hj.before k (hancestor.subset hk))
  · cases l with
    | nil => cases hk
    | cons k' l =>
        rcases List.mem_cons.mp hk with rfl | hk
        · rw [hi.own k rfl]
          exact hij
        · rw [List.tail_cons] at hsibling
          exact Nat.ne_of_lt (hj.before k (hsibling ▸ hk))

/-- Why a context is done is told by its lineage: first by the handles that have been used, then by
the timeouts that are over. So no derivation changes it for a context that there is, no handle for an
ancestor or a sibling of the handle's context, and what is done stays done. -/
theorem err_run (events : List Event) :
    let w := Tree.background.run events
    let h := History.background.run events
    w.members.length = h.lineages.length ∧
      ∀ i c l, w.context? i = some c → h.lineages[i]? = some l →
        (c.err w.time = some .canceled ↔ h.Canceled l) ∧
        (c.err w.time = some .deadlineExceeded ↔ ¬h.Canceled l ∧ h.Expired l) ∧
        (c.err w.time = none ↔ ¬h.Canceled l ∧ ¬h.Expired l) ∧
        (∀ j how, c.err (w.step (.derive j how)).time = c.err w.time) ∧
        (∀ j l', h.lineages[j]? = some l' → i ≠ j → l <:+ l'.tail ∨ l.tail = l'.tail →
          c.err (w.step (.cancel j)).time = c.err w.time) ∧
        ∀ more, (w.run more).context? i = some c ∧
          (c.err w.time ≠ none → c.err (w.run more).time ≠ none) := by
  intro w h
  have hw : Tracks w h := tracks_background.run events
  refine ⟨hw.length, fun i c l hc hl => ?_⟩
  have hcarries := hw.carries hc hl
  have hstep (e : Event) := (hw.step e).carries (context?_step hc e) (lineages_step hl e)
  refine ⟨hw.err_eq_canceled_iff hcarries, hw.err_eq_deadlineExceeded_iff hcarries,
    hw.err_eq_none_iff hcarries, ?_, ?_, ?_⟩
  · intro j how
    exact hw.err_congr hcarries (hw.step _) (hstep _) canceled_step_of_derive expired_step_of_derive
  · intro j l' hl' hij hrelated
    have hj : j < w.members.length := hw.length ▸ (List.getElem?_eq_some_iff.mp hl').1
    have hc' : w.context? j = some w.members[j].context := by
      rw [Tree.context?, List.getElem?_eq_getElem hj, Option.map_some]
    have hapart := context_ne_of_related hij hcarries (hw.carries hc' hl') hrelated
    exact hw.err_congr hcarries (hw.step _) (hstep _) (canceled_step_of_cancel hapart)
      expired_step_of_cancel
  · intro more
    have hlater := (hw.run more).carries (context?_run hc more) (lineages_run hl more)
    refine ⟨context?_run hc more, ?_⟩
    rw [ne_eq, hw.err_eq_none_iff hcarries, ne_eq, (hw.run more).err_eq_none_iff hlater]
    intro hdone hvalid
    have hdone' : h.Canceled l ∨ h.Expired l := by
      by_contra hnot
      exact hdone (not_or.mp hnot)
    exact (done_run hdone' more).elim hvalid.1 hvalid.2

/-- A context with a timeout, two contexts with handles below it, and one beside it. -/
def relatives : List Event :=
  [.derive 0 (.timeout ⟨5⟩), .derive 1 .cancel, .derive 1 .cancel, .derive 0 (.param "id" "7"),
    .cancel 2, .pass ⟨5⟩]

/-- The canceled context says so although its time is over as well. Its sibling says that the time is
over, and so does their parent, also when the other handle is used and whatever happens next. -/
theorem err_run_relatives :
    let w := Tree.background.run relatives
    (w.context? 2).map (·.err w.time) = some (some .canceled) ∧
      (w.context? 3).map (·.err w.time) = some (some .deadlineExceeded) ∧
      (w.context? 4).map (·.err w.time) = some none ∧
      (w.context? 1).map (·.err (w.step (.cancel 3)).time) = some (some .deadlineExceeded) ∧
      ∀ more, ∃ c, (w.run more).context? 1 = some c ∧ c.err (w.run more).time ≠ none := by
  obtain ⟨-, h⟩ := err_run relatives
  obtain ⟨hcanceled, -, -, -, -, -⟩ := h 2 _ _ rfl rfl
  obtain ⟨-, hexpired, -, -, -, -⟩ := h 3 _ _ rfl rfl
  obtain ⟨-, -, hvalid, -, -, -⟩ := h 4 _ _ rfl rfl
  obtain ⟨-, hparent, hdone, -, hhandle, hstays⟩ := h 1 _ _ rfl rfl
  have hnot (l : Lineage) (hl : ∀ k ∈ l, k.context ≠ 2) :
      ¬(History.background.run relatives).Canceled l := by
    rintro ⟨k, hk, -, hused⟩
    exact hl k hk (List.mem_singleton.mp hused)
  have hover := hparent.mpr
    ⟨hnot _ (by decide), ⟨1, .timeout ⟨5⟩, 0⟩, List.mem_cons_self, ⟨5⟩, rfl, by decide⟩
  refine ⟨?_, ?_, ?_, ?_, ?_⟩
  · have hused := hcanceled.mpr ⟨⟨2, .cancel, 0⟩, List.mem_cons_self, rfl, by decide⟩
    exact congrArg some hused
  · have hlate := hexpired.mpr ⟨hnot _ (by decide), ⟨1, .timeout ⟨5⟩, 0⟩,
      List.mem_cons_of_mem _ List.mem_cons_self, ⟨5⟩, rfl, by decide⟩
    exact congrArg some hlate
  · have hfree := hvalid.mpr ⟨hnot _ (by decide), ?_⟩
    · exact congrArg some hfree
    · rintro ⟨k, hk, d, hhow, -⟩
      obtain rfl := List.mem_singleton.mp hk
      cases hhow
  · have hsame := hhandle 3 _ rfl (by decide) (Or.inl (List.suffix_refl _))
    exact congrArg some (hsame.trans hover)
  · intro more
    obtain ⟨hthere, hstill⟩ := hstays more
    refine ⟨_, hthere, hstill ?_⟩
    rw [hover]
    nofun

end WebResource.Context
