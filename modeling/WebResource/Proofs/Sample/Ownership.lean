import Mathlib.Data.List.Basic
import WebResource.Proofs.Outcome
import WebResource.Proofs.Repository
import WebResource.Sample.Store

namespace WebResource.Sample.Store

/-!
# The projects of notes

Each note of a store belongs to a project of the store, and operations on the notes of one project leave
those of the others alone. One operation does not look at the project of the note that it is given: an
update may take a note away from its project, even to a project that is not stored. All others keep both.
-/

variable {s : Store} {fresh : Nat → Uuid} {p : Project} {n : Note} {project q i : Uuid}

theorem hasProject_iff : s.hasProject i = true ↔ ∃ p ∈ s.projects, p.id = some i := by
  simp [hasProject]

/-- A project gives way to one with its identifier. -/
theorem projectIds_of_replaceFirst {projects : List Project}
    (h : Repository.replaceFirst (fun q => q.id.isSome && q.id == p.id) p s.projects = some projects) :
    projects.map Project.id = s.projects.map Project.id := by
  refine Repository.map_replaceFirst h fun q _ hq => ?_
  simp only [Bool.and_eq_true, beq_iff_eq] at hq
  exact hq.2

/-- Every note belongs to a project that is stored. -/
def Owned (s : Store) : Prop := ∀ n ∈ s.notes, ∃ p ∈ s.projects, p.id = some n.project

namespace Owned

/-! ## Operations on projects -/

theorem addProject (h : s.Owned) (p : Project) (k : Nat) : Owned ⟨s.projects ++ [p], s.notes, k⟩ := by
  intro n hn
  obtain ⟨q, hq, hqn⟩ := h n hn
  exact ⟨q, List.mem_append_left _ hq, hqn⟩

theorem createProject (h : s.Owned) (fresh : Nat → Uuid) (p : Project) :
    (s.createProject fresh p).2.Owned := by
  unfold Store.createProject
  split
  · split
    · exact h
    · exact h.addProject p s.drawn
  · exact h.addProject _ _

/-- The notes of a project are those of the new one. -/
theorem updateProject (h : s.Owned) (p : Project) : (s.updateProject p).2.Owned := by
  unfold Store.updateProject
  split
  · next projects hreplaced =>
      intro n hn
      have hmem : some n.project ∈ s.projects.map Project.id := List.mem_map.mpr (h n hn)
      rw [← projectIds_of_replaceFirst hreplaced] at hmem
      exact List.mem_map.mp hmem
  · exact h

theorem deleteProject (h : s.Owned) (i : Uuid) : (s.deleteProject i).2.Owned := by
  unfold Store.deleteProject
  split
  · intro n hn
    -- A note that stays is of another project, which stays as well.
    obtain ⟨hn, hkept⟩ := List.mem_filter.mp hn
    obtain ⟨p, hp, hpn⟩ := h n hn
    refine ⟨p, List.mem_filter.mpr ⟨hp, ?_⟩, hpn⟩
    simpa [hpn] using hkept
  · exact h

theorem deleteProjects (s : Store) : s.deleteProjects.Owned := by
  intro n hn
  cases hn

/-! ## Operations on notes -/

theorem addNote (h : s.Owned) (hn : ∃ p ∈ s.projects, p.id = some n.project) (k : Nat) :
    Owned ⟨s.projects, s.notes ++ [n], k⟩ := by
  intro m hm
  rcases List.mem_append.mp hm with hm | hm
  · exact h m hm
  · rw [List.mem_singleton.mp hm]
    exact hn

/-- The project is looked up in the same step, so it has not been deleted since. -/
theorem createNote (h : s.Owned) (fresh : Nat → Uuid) (project : Uuid) (n : Note) :
    (s.createNote fresh project n).2.Owned := by
  unfold Store.createNote
  split
  · exact h
  · next hproject =>
      obtain rfl := Decidable.not_not.mp hproject
      split
      · exact h
      · next hfound =>
          have hstored : ∃ p ∈ s.projects, p.id = some n.project :=
            hasProject_iff.mp (by simpa using hfound)
          split
          · split
            · exact h
            · exact h.addNote hstored _
          · exact h.addNote (n := { n with id := some (fresh s.drawn) }) hstored _

theorem deleteNote (h : s.Owned) (project i : Uuid) : (s.deleteNote project i).2.Owned := by
  unfold Store.deleteNote
  split
  · exact fun n hn => h n (List.mem_filter.mp hn).1
  · exact h

end Owned

/-! ## Updates of notes -/

/-- A note of the project is stored that gives way to the note when it is updated. -/
def Supersedes (project : Uuid) (n : Note) (s : Store) : Prop :=
  ∃ m ∈ s.notes, m.project = project ∧ m.id.isSome = true ∧ m.id = n.id

theorem updateNote_cases (s : Store) (project : Uuid) (n : Note) :
    (Supersedes project n s ∧ ∃ front m back, s.notes = front ++ m :: back ∧ m.project = project ∧
      (s.updateNote project n).2 = ⟨s.projects, front ++ n :: back, s.drawn⟩) ∨
    (¬Supersedes project n s ∧ (s.updateNote project n).2 = s) := by
  unfold updateNote
  split
  · next notes hreplaced =>
      obtain ⟨front, m, back, hbefore, rfl, hm⟩ := Repository.exists_of_replaceFirst hreplaced
      simp only [Bool.and_eq_true, beq_iff_eq] at hm
      obtain ⟨⟨hproject, hsome⟩, hid⟩ := hm
      have hmem : m ∈ s.notes := hbefore ▸ List.mem_append_right _ List.mem_cons_self
      exact Or.inl ⟨⟨m, hmem, hproject, hsome, hid⟩, front, m, back, hbefore, hproject, rfl⟩
  · next hnone =>
      refine Or.inr ⟨?_, rfl⟩
      rintro ⟨m, hm, hproject, hsome, hid⟩
      have hother := (Repository.replaceFirst_eq_none_iff n).mp hnone m hm
      rw [hsome, Bool.and_true, Bool.and_eq_false_iff, beq_eq_false_iff_ne, beq_eq_false_iff_ne] at hother
      rcases hother with hother | hother
      · exact hother hproject
      · exact hother hid

theorem owned_updateNote_iff (h : s.Owned) :
    (s.updateNote project n).2.Owned ↔ (Supersedes project n s → s.hasProject n.project = true) := by
  rcases updateNote_cases s project n with ⟨hsupersedes, front, m, back, hbefore, -, hafter⟩ | ⟨hnone, hsame⟩
  · rw [hafter, hasProject_iff]
    constructor
    · intro howned _
      exact howned n (List.mem_append_right _ List.mem_cons_self)
    · intro hstored k hk
      rcases List.mem_append.mp hk with hk | hk
      · exact h k (hbefore ▸ List.mem_append_left _ hk)
      rcases List.mem_cons.mp hk with rfl | hk
      · exact hstored hsupersedes
      · exact h k (hbefore ▸ List.mem_append_right _ (List.mem_cons_of_mem m hk))
  · rw [hsame]
    exact ⟨fun _ hsupersedes => absurd hsupersedes hnone, fun _ => h⟩

/-! ## Notes of other projects -/

theorem notesOf_createNote (hq : q ≠ project) : (s.createNote fresh project n).2.notesOf q = s.notesOf q := by
  unfold createNote
  split
  · rfl
  · next hproject =>
      obtain rfl := Decidable.not_not.mp hproject
      have hother : (n.project == q) = false := beq_eq_false_iff_ne.mpr hq.symm
      split
      · rfl
      · split
        · split
          · rfl
          · simp [notesOf, hother]
        · simp [notesOf, hother]

theorem notesOf_deleteNote (hq : q ≠ project) : (s.deleteNote project i).2.notesOf q = s.notesOf q := by
  unfold deleteNote
  split
  · rw [notesOf, notesOf, List.filter_filter]
    apply List.filter_congr
    intro m _
    cases hm : m.project == q with
    | false => rfl
    | true =>
        have hother : (m.project == project) = false := beq_eq_false_iff_ne.mpr (beq_iff_eq.mp hm ▸ hq)
        simp [isNote, hother]
  · rfl

theorem notesOf_updateNote_iff (hq : q ≠ project) :
    (s.updateNote project n).2.notesOf q = s.notesOf q ↔ (Supersedes project n s → n.project ≠ q) := by
  rcases updateNote_cases s project n with ⟨hsupersedes, front, m, back, hbefore, hm, hafter⟩ | ⟨hnone, hsame⟩
  · have hother : (m.project == q) = false := beq_eq_false_iff_ne.mpr (hm ▸ hq.symm)
    rw [hafter, notesOf, notesOf, hbefore]
    cases hn : n.project == q with
    | false => simp [hn, hother, hsupersedes, beq_eq_false_iff_ne.mp hn]
    | true => simp [hother, hsupersedes, beq_iff_eq.mp hn]
  · rw [hsame]
    exact ⟨fun _ hsupersedes => absurd hsupersedes hnone, fun _ => rfl⟩

/-! ## Operations in a context -/

/-- An operation that may change what is stored. -/
inductive Change where
  | createProject (p : Project)
  | updateProject (p : Project)
  | deleteProject (i : Uuid)
  | deleteProjects
  | createNote (n : Note)
  | updateNote (n : Note)
  | deleteNote (i : Uuid)
  deriving DecidableEq

def Change.IsOfNotes : Change → Prop
  | createNote _ | updateNote _ | deleteNote _ => True
  | createProject _ | updateProject _ | deleteProject _ | deleteProjects => False

/-- The store behind an operation; one that is missing does nothing. -/
def behind {α : Type} (x : Option (Act Store α)) (s : Store) : Store := x.elim s fun x => (x.outcome s).2

/-- The store behind an operation that is called with a context. -/
def Change.apply (fresh : Nat → Uuid) (c : Context) (s : Store) : Change → Store
  | createProject p => behind ((projectOperations fresh).create.map fun create => create c p) s
  | updateProject p => behind ((projectOperations fresh).update.map fun update => update c p) s
  | deleteProject i => behind ((projectOperations fresh).destroy.map fun destroy => destroy c i) s
  | deleteProjects => behind ((projectOperations fresh).destroyAll.map fun destroyAll => destroyAll c) s
  | createNote n => behind ((noteOperations fresh).create.map fun create => create c n) s
  | updateNote n => behind ((noteOperations fresh).update.map fun update => update c n) s
  | deleteNote i => behind ((noteOperations fresh).destroy.map fun destroy => destroy c i) s

/-- What is listed of the notes of the project that a context names. -/
def listed (fresh : Nat → Uuid) (c : Context) (s : Store) : Option (Except Payload (List (Fetched Note))) :=
  (noteOperations fresh).index.map fun index => ((index c).outcome s).1.map EntityStream.items

variable {c d : Context}

theorem owned_checked {α : Type} {x : Act Store (Except StorageError α)} (h : s.Owned)
    (hx : (x.outcome s).2.Owned) : (behind (some (checked p x)) s).Owned := by
  unfold checked
  split
  · exact h
  · exact hx

theorem behind_within {α : Type} (x : Uuid → Act Store (Except StorageError α))
    (hc : projectOf c = .ok project) : behind (some (within c x)) s = ((x project).outcome s).2 := by
  unfold within
  rw [hc]
  rfl

theorem behind_within_error {α : Type} (x : Uuid → Act Store (Except StorageError α)) {e : StorageError}
    (hc : projectOf c = .error e) : behind (some (within c x)) s = s := by
  unfold within
  rw [hc]
  rfl

theorem owned_within {α : Type} {x : Uuid → Act Store (Except StorageError α)} (h : s.Owned)
    (hx : ∀ project, ((x project).outcome s).2.Owned) : (behind (some (within c x)) s).Owned := by
  cases hc : projectOf c with
  | error e =>
      rw [behind_within_error x hc]
      exact h
  | ok project =>
      rw [behind_within x hc]
      exact hx project

theorem outcome_logCreated (r : Except StorageError Project) (s : Store) :
    (logCreated r).outcome s = (.ok r, s) := by
  cases r <;> rfl

theorem listed_of_projectOf (hd : projectOf d = .ok q) :
    listed fresh d s = some (.ok ((s.notesOf q).map .entity)) := by
  change some (((noteStream d).outcome s).1.map EntityStream.items) = _
  unfold noteStream
  rw [hd]
  rfl

theorem listed_congr_iff {s' : Store} (hd : projectOf d = .ok q) :
    listed fresh d s' = listed fresh d s ↔ s'.notesOf q = s.notesOf q := by
  have hentity : Function.Injective (Fetched.entity : Note → Fetched Note) := by
    intro a b hab
    cases hab
    rfl
  rw [listed_of_projectOf hd, listed_of_projectOf hd, Option.some.injEq, Except.ok.injEq]
  exact (List.map_injective_iff.mpr hentity).eq_iff

/-- The update of a note of the project that the context names. -/
def Change.Supersedes (c : Context) (s : Store) (x : Change) (n : Note) : Prop :=
  x = .updateNote n ∧ ∃ project, projectOf c = .ok project ∧ Store.Supersedes project n s

theorem Owned.apply_iff (h : s.Owned) (fresh : Nat → Uuid) (c : Context) (x : Change) :
    (x.apply fresh c s).Owned ↔ ∀ n, x.Supersedes c s n → s.hasProject n.project = true := by
  have hother (hx : ∀ n, x ≠ .updateNote n) (howned : (x.apply fresh c s).Owned) :
      (x.apply fresh c s).Owned ↔ ∀ n, x.Supersedes c s n → s.hasProject n.project = true :=
    ⟨fun _ n hn => absurd hn.1 (hx n), fun _ => howned⟩
  cases x with
  | createProject p =>
      refine hother (fun _ h => nomatch h) (owned_checked h ?_)
      rw [Act.outcome_bind, Act.outcome_step, Act.continueWith_ok, outcome_logCreated]
      exact h.createProject fresh p
  | updateProject p => exact hother (fun _ h => nomatch h) (owned_checked h (h.updateProject p))
  | deleteProject i => exact hother (fun _ h => nomatch h) (h.deleteProject i)
  | deleteProjects => exact hother (fun _ h => nomatch h) (.deleteProjects s)
  | createNote n =>
      exact hother (fun _ h => nomatch h) (owned_within h fun project => h.createNote fresh project n)
  | deleteNote i =>
      exact hother (fun _ h => nomatch h) (owned_within h fun project => h.deleteNote project i)
  | updateNote n =>
      cases hc : projectOf c with
      | error e =>
          have hbehind : (Change.updateNote n).apply fresh c s = s := behind_within_error _ hc
          rw [hbehind]
          refine ⟨?_, fun _ => h⟩
          rintro - k ⟨-, project, hproject, -⟩
          cases hc.symm.trans hproject
      | ok project =>
          have hbehind : (Change.updateNote n).apply fresh c s = (s.updateNote project n).2 :=
            behind_within _ hc
          rw [hbehind, owned_updateNote_iff h]
          constructor
          · rintro hstored k ⟨hk, project', hproject', hsupersedes⟩
            obtain rfl := Except.ok.inj (hc.symm.trans hproject')
            obtain rfl := Change.updateNote.inj hk
            exact hstored hsupersedes
          · intro hstored hsupersedes
            exact hstored n ⟨rfl, project, hc, hsupersedes⟩

theorem notesOf_apply_iff {x : Change} (hx : x.IsOfNotes) (hc : projectOf c = .ok project)
    (hq : q ≠ project) :
    (x.apply fresh c s).notesOf q = s.notesOf q ↔ ∀ n, x.Supersedes c s n → n.project ≠ q := by
  cases x with
  | createProject p => exact hx.elim
  | updateProject p => exact hx.elim
  | deleteProject i => exact hx.elim
  | deleteProjects => exact hx.elim
  | createNote n =>
      refine ⟨fun _ k hk => (nomatch hk.1), fun _ => ?_⟩
      exact (congrArg (notesOf q) (behind_within _ hc)).trans (notesOf_createNote hq)
  | deleteNote i =>
      refine ⟨fun _ k hk => (nomatch hk.1), fun _ => ?_⟩
      exact (congrArg (notesOf q) (behind_within _ hc)).trans (notesOf_deleteNote hq)
  | updateNote n =>
      have hbehind : (Change.updateNote n).apply fresh c s = (s.updateNote project n).2 :=
        behind_within _ hc
      rw [hbehind, notesOf_updateNote_iff hq]
      constructor
      · rintro hother k ⟨hk, project', hproject', hsupersedes⟩
        obtain rfl := Except.ok.inj (hc.symm.trans hproject')
        obtain rfl := Change.updateNote.inj hk
        exact hother hsupersedes
      · intro hother hsupersedes
        exact hother n ⟨rfl, project, hc, hsupersedes⟩

/-- Where every note belongs to a stored project, it does so behind every operation in every context, unless
a note of the context's project is updated by one of a project that is not stored. And an operation on the
notes of one project leaves what is listed of another one alone, unless it is an update by a note of that
project. -/
theorem owned_and_listed_iff (fresh : Nat → Uuid) (c : Context) (x : Change) (s : Store) (h : s.Owned) :
    ((x.apply fresh c s).Owned ↔ ∀ n, x.Supersedes c s n → s.hasProject n.project = true) ∧
    ∀ project, x.IsOfNotes → projectOf c = .ok project → ∀ d q, projectOf d = .ok q → q ≠ project →
      (listed fresh d (x.apply fresh c s) = listed fresh d s ↔ ∀ n, x.Supersedes c s n → n.project ≠ q) := by
  refine ⟨h.apply_iff fresh c x, ?_⟩
  intro project hx hc d q hd hq
  rw [listed_congr_iff hd]
  exact notesOf_apply_iff hx hc hq

section Moved

def given (n : Nat) : Uuid := ⟨BitVec.ofNat 128 n⟩

def naming (project : String) : Context := Context.background.withParam projectParam project

/-- A project with a note. -/
def paired : Store := ⟨[⟨some (given 0), "p"⟩], [⟨some (given 2), given 0, "n"⟩], 0⟩

/-- The note as one of a project that is not stored. -/
def moved : Note := ⟨some (given 2), given 1, "n"⟩

theorem owned_and_listed_iff_moved :
    let c := naming "00000000-0000-0000-0000-000000000000"
    let d := naming "00000000-0000-0000-0000-000000000001"
    let after := (Change.updateNote moved).apply given c paired
    paired.Owned ∧ projectOf c = .ok (given 0) ∧ projectOf d = .ok (given 1) ∧
      ¬after.Owned ∧ listed given d after ≠ listed given d paired := by
  intro c d after
  have howned : paired.Owned := by
    simp [Owned, paired]
  have hc : projectOf c = .ok (given 0) := by decide +kernel
  have hd : projectOf d = .ok (given 1) := by decide +kernel
  have hother : given 1 ≠ given 0 := by decide
  have hsupersedes : (Change.updateNote moved).Supersedes c paired moved :=
    ⟨rfl, given 0, hc, _, List.mem_cons_self, rfl, rfl, rfl⟩
  have hmissing : ¬paired.hasProject moved.project = true := by decide
  obtain ⟨howned_iff, hlisted_iff⟩ := owned_and_listed_iff given c (.updateNote moved) paired howned
  refine ⟨howned, hc, hd, fun h => hmissing (howned_iff.mp h moved hsupersedes), fun h => ?_⟩
  exact (hlisted_iff (given 0) trivial hc d (given 1) hd hother).mp h moved hsupersedes rfl

end Moved

end WebResource.Sample.Store
