import Mathlib.Data.List.Induction
import Mathlib.Data.List.Nodup
import WebResource.Router.Trie

namespace WebResource

/-!
# Plans

What has been registered with a router, in the order in which it was. A plan says what a request
meets at each position of the routing trie, however the trie stores it.
-/

namespace Trie

/-- A step from a node to one of its children. -/
inductive Step where
  | literal (segment : String)
  | dynamic
  deriving DecidableEq

/-- The steps that lead to a node. -/
abbrev Position := List Step

/-- A segment of a pattern. One that starts with a colon takes any segment, under a name. -/
inductive PatternSegment where
  | literal (segment : String)
  | dynamic (name : String)
  deriving DecidableEq

namespace PatternSegment

def read (s : String) : PatternSegment :=
  match s.toList with
  | ':' :: name => .dynamic (String.ofList name)
  | _ => .literal s

def step : PatternSegment → Step
  | .literal s => .literal s
  | .dynamic _ => .dynamic

def name? : PatternSegment → Option String
  | .literal _ => none
  | .dynamic name => some name

theorem read_of_colon {s : String} {name : List Char} (h : s.toList = ':' :: name) :
    read s = .dynamic (String.ofList name) := by
  simp only [read, h]

theorem read_of_plain {s : String} (h : ∀ name, s.toList ≠ ':' :: name) :
    read s = .literal s := by
  unfold read
  split
  · next name hname => exact absurd hname (h name)
  · rfl

end PatternSegment

abbrev Pattern := List PatternSegment

namespace Pattern

def ofPath (path : String) : Pattern := (Path.segments path).map PatternSegment.read

def position (p : Pattern) : Position := p.map PatternSegment.step

/-- The name that a pattern gives to what the dynamic child at a position takes. -/
def nameAt : Position → Pattern → Option String
  | [], p :: _ => p.name?
  | s :: pos, p :: ps => if p.step = s then nameAt pos ps else none
  | _, [] => none

theorem position_append (p q : Pattern) : position (p ++ q) = position p ++ position q :=
  List.map_append

@[simp] theorem length_position (p : Pattern) : (position p).length = p.length := List.length_map _

theorem position_prefix {p q : Pattern} (h : p <+: q) : position p <+: position q := h.map _

theorem nameAt_append_right (p q : Pattern) (pos : Position) :
    nameAt (position p ++ pos) (p ++ q) = nameAt pos q := by
  induction p with
  | nil => rfl
  | cons s p ih => exact (if_pos rfl).trans ih

theorem prefix_of_nameAt {p : Pattern} {pos : Position} {name : String}
    (h : nameAt pos p = some name) : pos <+: position p := by
  induction p generalizing pos with
  | nil => cases pos <;> cases h
  | cons s p ih =>
      cases pos with
      | nil => exact List.nil_prefix
      | cons t pos =>
          rw [nameAt] at h
          split at h
          · next ht =>
              subst ht
              exact (List.prefix_cons_inj s.step).mpr (ih h)
          · cases h

theorem nameAt_position (p : Pattern) : nameAt (position p) p = none := by
  have hright := nameAt_append_right p [] []
  rw [List.append_nil, List.append_nil] at hright
  exact hright

/-- A name that a pattern gives is given by all longer patterns too. -/
theorem nameAt_of_prefix {p q : Pattern} (h : p <+: q) {pos : Position} {name : String}
    (hname : nameAt pos p = some name) : nameAt pos q = some name := by
  obtain ⟨q, rfl⟩ := h
  induction p generalizing pos with
  | nil => cases pos <;> cases hname
  | cons s p ih =>
      cases pos with
      | nil => exact hname
      | cons t pos =>
          rw [nameAt] at hname
          rw [List.cons_append, nameAt]
          split at hname
          · next ht => exact (if_pos ht).trans (ih hname)
          · cases hname

/-- Before its end, a pattern gives the names that it gives whatever follows. -/
theorem nameAt_append_left {p : Pattern} (q : Pattern) {pos : Position} (h : pos.length < p.length) :
    nameAt pos (p ++ q) = nameAt pos p := by
  induction p generalizing pos with
  | nil => cases h
  | cons s p ih =>
      cases pos with
      | nil => rfl
      | cons t pos =>
          rw [List.cons_append, nameAt, nameAt]
          split
          · exact ih (Nat.lt_of_succ_lt_succ h)
          · rfl

end Pattern

/-! ## What a node holds -/

/-- What is registered at a position, apart from the children that it has. -/
structure Content (H M : Type) where
  names : List String
  methods : List (String × H)
  fallback : Option H
  patterns : List (String × H)
  middlewares : List M

namespace Content

variable {H M : Type}

def empty : Content H M := ⟨[], [], none, [], []⟩

/-- What is registered at a position when other registrations come behind those there are. -/
def append (c d : Content H M) : Content H M where
  names := addNames c.names d.names
  methods := c.methods ++ d.methods
  fallback := c.fallback.or d.fallback
  patterns := c.patterns ++ d.patterns
  middlewares := c.middlewares ++ d.middlewares

/-- Contents of which each has a handler for the same requests. -/
def Clashes (c d : Content H M) : Prop :=
  (∃ m ∈ d.methods, m.1 ∈ c.methods.map Prod.fst) ∨
    (c.fallback.isSome ∧ d.fallback.isSome) ∨
    ∃ e ∈ d.patterns, e.1 ∈ c.patterns.map Prod.fst

/-- Content with each name once and at most one handler for each method and each pattern. -/
structure Distinct (c : Content H M) : Prop where
  names : c.names.Nodup
  methods : (c.methods.map Prod.fst).Nodup
  patterns : (c.patterns.map Prod.fst).Nodup

end Content

section Names

theorem addNames_append (names more most : List String) :
    addNames names (more ++ most) = addNames (addNames names more) most := List.foldl_append

theorem addNames_of_mem {names : List String} {name : String} (h : name ∈ names) :
    addNames names [name] = names := if_pos (List.contains_iff_mem.mpr h)

theorem addNames_singleton_of_notMem {names : List String} {name : String} (h : name ∉ names) :
    addNames names [name] = names ++ [name] := if_neg (by simpa using h)

theorem mem_addNames {names more : List String} {name : String} :
    name ∈ addNames names more ↔ name ∈ names ∨ name ∈ more := by
  induction more generalizing names with
  | nil => simp [addNames]
  | cons x more ih =>
      rw [show x :: more = [x] ++ more from rfl, addNames_append, ih, List.mem_append,
        List.mem_singleton, ← or_assoc]
      refine or_congr_left ?_
      by_cases hx : x ∈ names
      · rw [addNames_of_mem hx]
        constructor
        · exact Or.inl
        · rintro (h | rfl)
          · exact h
          · exact hx
      · rw [addNames_singleton_of_notMem hx, List.mem_append, List.mem_singleton]

theorem addNames_of_nodup {names more : List String} (h : (names ++ more).Nodup) :
    addNames names more = names ++ more := by
  induction more generalizing names with
  | nil => rw [List.append_nil]; rfl
  | cons x more ih =>
      have hassoc : names ++ x :: more = names ++ [x] ++ more := by simp
      have hx : x ∉ names := fun hx => h.disjoint hx List.mem_cons_self
      rw [hassoc] at h ⊢
      rw [show x :: more = [x] ++ more from rfl, addNames_append, addNames_singleton_of_notMem hx, ih h]

theorem nodup_addNames {names : List String} (h : names.Nodup) (more : List String) :
    (addNames names more).Nodup := by
  induction more generalizing names with
  | nil => exact h
  | cons x more ih =>
      rw [show x :: more = [x] ++ more from rfl, addNames_append]
      by_cases hx : x ∈ names
      · rw [addNames_of_mem hx]
        exact ih h
      · rw [addNames_singleton_of_notMem hx]
        exact ih (List.nodup_append_comm.mp (List.nodup_cons.mpr ⟨hx, h⟩))

theorem addNames_assoc (names more most : List String) :
    addNames (addNames names more) most = addNames names (addNames more most) := by
  induction most generalizing more with
  | nil => rfl
  | cons x most ih =>
      have hone : addNames (addNames names more) [x] = addNames names (addNames more [x]) := by
        by_cases hx : x ∈ more
        · rw [addNames_of_mem hx, addNames_of_mem (mem_addNames.mpr (Or.inr hx))]
        · rw [addNames_singleton_of_notMem hx, addNames_append]
      rw [show x :: most = [x] ++ most from rfl, addNames_append, addNames_append, hone, ih]

end Names

namespace Content

variable {H M : Type}

@[simp] theorem append_empty (c : Content H M) : c.append .empty = c := by
  simp [append, empty, addNames]

theorem empty_append {c : Content H M} (h : c.names.Nodup) : Content.empty.append c = c := by
  have hnames : addNames [] c.names = c.names := addNames_of_nodup h
  simp only [append, empty, hnames, List.nil_append, Option.none_or]

theorem append_assoc (c d e : Content H M) : (c.append d).append e = c.append (d.append e) := by
  simp only [append, addNames_assoc, List.append_assoc, Option.or_assoc]

theorem distinct_empty : (Content.empty : Content H M).Distinct :=
  ⟨List.nodup_nil, List.nodup_nil, List.nodup_nil⟩

theorem Distinct.append {c d : Content H M} (hc : c.Distinct) (hd : d.Distinct)
    (h : ¬c.Clashes d) : (c.append d).Distinct := by
  obtain ⟨hmethods, hrest⟩ := not_or.mp h
  obtain ⟨-, hpatterns⟩ := not_or.mp hrest
  have hapart (as bs : List (String × H)) (hno : ¬∃ b ∈ bs, b.1 ∈ as.map Prod.fst) :
      ∀ x ∈ as.map Prod.fst, ∀ y ∈ bs.map Prod.fst, x ≠ y := by
    rintro x has y hbs rfl
    obtain ⟨b, hb, rfl⟩ := List.mem_map.mp hbs
    exact hno ⟨b, hb, has⟩
  constructor
  · exact nodup_addNames hc.names d.names
  · simp only [Content.append, List.map_append]
    exact List.nodup_append.mpr ⟨hc.methods, hd.methods, hapart _ _ hmethods⟩
  · simp only [Content.append, List.map_append]
    exact List.nodup_append.mpr ⟨hc.patterns, hd.patterns, hapart _ _ hpatterns⟩

/-- To clash with two contents in a row is to clash with one of them. -/
theorem clashes_append_right (c d e : Content H M) :
    c.Clashes (d.append e) ↔ c.Clashes d ∨ c.Clashes e := by
  simp only [Clashes, append, List.mem_append, Option.isSome_or, Bool.or_eq_true, or_and_right,
    exists_or, and_or_left, or_assoc, or_left_comm]

theorem clashes_append_left (c d e : Content H M) :
    (c.append d).Clashes e ↔ c.Clashes e ∨ d.Clashes e := by
  simp only [Clashes, append, List.map_append, List.mem_append, Option.isSome_or, Bool.or_eq_true,
    and_or_left, or_and_right, exists_or, or_assoc, or_left_comm]

theorem not_clashes_empty (c : Content H M) : ¬c.Clashes .empty := by
  simp [Clashes, empty]

theorem not_empty_clashes (c : Content H M) : ¬(Content.empty : Content H M).Clashes c := by
  simp [Clashes, empty]

end Content

/-! ## Registrations -/

/-- What may be registered at a position. Making a view registers nothing but makes the position. -/
inductive Item (H M : Type) where
  | view
  | method (method : String) (h : H)
  | mount (h : H)
  | pattern (pattern : String) (h : H)
  | middlewares (ms : List M)

structure Registration (H M : Type) where
  pattern : Pattern
  item : Item H M

/-- The registrations of a router, the first one first. -/
abbrev Plan (H M : Type) := List (Registration H M)

variable {H M : Type}

def Item.content : Item H M → Content H M
  | .view => .empty
  | .method m h => { Content.empty with methods := [(m, h)] }
  | .mount h => { Content.empty with fallback := some h }
  | .pattern p h => { Content.empty with patterns := [(PatternTable.rooted p, h)] }
  | .middlewares ms => ⟨[], [], none, [], ms⟩

theorem Item.names_content (item : Item H M) : item.content.names = [] := by
  cases item <;> rfl

theorem Item.distinct_content (item : Item H M) : item.content.Distinct := by
  cases item <;> constructor <;> simp [Item.content, Content.empty]

namespace Registration

def position (r : Registration H M) : Position := Pattern.position r.pattern

/-- What a registration adds at a position: its item at the end of its pattern, and before that the
names in the pattern. -/
def content (r : Registration H M) (pos : Position) : Content H M :=
  { (if r.position = pos then r.item.content else .empty) with
    names := (Pattern.nameAt pos r.pattern).toList }

/-- The same registration below a pattern. -/
def below (p : Pattern) (r : Registration H M) : Registration H M := ⟨p ++ r.pattern, r.item⟩

theorem content_position (r : Registration H M) : r.content r.position = r.item.content := by
  rw [content, if_pos rfl, position, Pattern.nameAt_position, Option.toList_none,
    ← r.item.names_content]

theorem content_of_ne {r : Registration H M} {pos : Position} (h : r.position ≠ pos) :
    r.content pos = { Content.empty with names := (Pattern.nameAt pos r.pattern).toList } := by
  rw [content, if_neg h]

theorem content_of_not_prefix {r : Registration H M} {pos : Position} (h : ¬pos <+: r.position) :
    r.content pos = .empty := by
  have hname : Pattern.nameAt pos r.pattern = none :=
    Option.eq_none_iff_forall_ne_some.mpr fun name hname => h (Pattern.prefix_of_nameAt hname)
  rw [content_of_ne fun heq => h (heq ▸ List.prefix_rfl), hname]
  rfl

theorem content_below (p : Pattern) (r : Registration H M) (pos : Position) :
    (r.below p).content (Pattern.position p ++ pos) = r.content pos := by
  have hposition : (r.below p).position = Pattern.position p ++ pos ↔ r.position = pos := by
    rw [position, below, Pattern.position_append, List.append_cancel_left_eq]
    rfl
  have hname : Pattern.nameAt (Pattern.position p ++ pos) (r.below p).pattern =
      Pattern.nameAt pos r.pattern := Pattern.nameAt_append_right p r.pattern pos
  by_cases h : r.position = pos
  · rw [content, content, if_pos (hposition.mpr h), if_pos h, hname]
    rfl
  · rw [content_of_ne h, content_of_ne fun hpos => h (hposition.mp hpos), hname]

end Registration

namespace Plan

/-- What a plan says is registered at a position. -/
def content (plan : Plan H M) (pos : Position) : Content H M :=
  plan.foldl (fun c r => c.append (r.content pos)) .empty

/-- A position on the way to some registration; the root always is one. -/
def reaches (plan : Plan H M) (pos : Position) : Bool :=
  pos.isEmpty || plan.any fun r => pos.isPrefixOf r.position

/-- A pattern all of whose segments are in the plan. -/
def Covers (plan : Plan H M) (p : Pattern) : Prop := p = [] ∨ ∃ r ∈ plan, p <+: r.pattern

/-- Plans that say the same about all positions. -/
def Same (p q : Plan H M) : Prop := ∀ pos, content p pos = content q pos ∧ reaches p pos = reaches q pos

theorem Same.symm {p q : Plan H M} (h : Same p q) : Same q p :=
  fun pos => ⟨(h pos).1.symm, (h pos).2.symm⟩

variable {plan : Plan H M} {pos : Position}

theorem reaches_iff : reaches plan pos = true ↔ pos = [] ∨ ∃ r ∈ plan, pos <+: r.position := by
  simp [reaches]

theorem reaches_append (p q : Plan H M) (pos : Position) :
    reaches (p ++ q) pos = (reaches p pos || reaches q pos) := by
  cases pos <;> simp [reaches, List.any_append]

theorem content_append_singleton (plan : Plan H M) (r : Registration H M) (pos : Position) :
    content (plan ++ [r]) pos = (content plan pos).append (r.content pos) :=
  List.foldl_append

theorem content_append (p q : Plan H M) (pos : Position) :
    content (p ++ q) pos = (content p pos).append (content q pos) := by
  induction q using List.reverseRecOn with
  | nil => simp [content]
  | append_singleton q r ih =>
      rw [← List.append_assoc, content_append_singleton, ih, content_append_singleton,
        Content.append_assoc]

theorem content_of_not_reaches (h : reaches plan pos = false) : content plan pos = .empty := by
  induction plan using List.reverseRecOn with
  | nil => rfl
  | append_singleton plan r ih =>
      rw [reaches_append, Bool.or_eq_false_iff] at h
      have hr : ¬pos <+: r.position := fun hr => by
        rw [reaches_iff.mpr (Or.inr ⟨r, List.mem_singleton_self r, hr⟩)] at h
        cases h.2
      rw [content_append_singleton, ih h.1, Registration.content_of_not_prefix hr,
        Content.append_empty]

theorem mem_names_content {name : String} :
    name ∈ (content plan pos).names ↔ ∃ r ∈ plan, Pattern.nameAt pos r.pattern = some name := by
  induction plan using List.reverseRecOn with
  | nil => simp [content, Content.empty]
  | append_singleton plan r ih =>
      rw [content_append_singleton]
      simp only [Content.append, mem_addNames, ih, List.mem_append, List.mem_singleton,
        Registration.content, Option.mem_toList, or_and_right, exists_or, exists_eq_left]

theorem append_names_of_mem {c : Content H M} {name : Option String}
    (h : ∀ n, name = some n → n ∈ c.names) :
    c.append { Content.empty with names := name.toList } = c := by
  have hnames : addNames c.names name.toList = c.names := by
    cases name with
    | none => rfl
    | some n => exact addNames_of_mem (h n rfl)
  simp only [Content.append, Content.empty, hnames, List.append_nil, Option.or_none]

/-! ### Registrations below a pattern -/

section Below

variable {p : Pattern}

theorem Covers.append (h : Covers plan p) (more : Plan H M) : Covers (plan ++ more) p :=
  h.imp_right fun ⟨r, hr, hp⟩ => ⟨r, List.mem_append_left more hr, hp⟩

theorem covers_last (plan : Plan H M) (r : Registration H M) : Covers (plan ++ [r]) r.pattern :=
  Or.inr ⟨r, List.mem_append_right plan (List.mem_singleton_self r), List.prefix_rfl⟩

theorem Covers.reaches (h : Covers plan p) : reaches plan (Pattern.position p) = true := by
  rw [reaches_iff]
  rcases h with rfl | ⟨r, hr, hp⟩
  · exact Or.inl rfl
  · exact Or.inr ⟨r, hr, Pattern.position_prefix hp⟩

theorem Covers.mem_names (h : Covers plan p) {name : String} (hname : Pattern.nameAt pos p = some name) :
    name ∈ (content plan pos).names := by
  rcases h with rfl | ⟨r, hr, hp⟩
  · cases pos <;> cases hname
  · exact mem_names_content.mpr ⟨r, hr, Pattern.nameAt_of_prefix hp hname⟩

theorem content_below_within (more : Plan H M) (pos : Position) :
    content (more.map (Registration.below p)) (Pattern.position p ++ pos) = content more pos := by
  induction more using List.reverseRecOn with
  | nil => rfl
  | append_singleton more r ih =>
      rw [List.map_append, List.map_singleton, content_append_singleton, ih,
        Registration.content_below, content_append_singleton]

theorem reaches_below_covered (h : Covers plan p) (more : Plan H M) (pos : Position) :
    reaches (plan ++ more.map (Registration.below p)) (Pattern.position p ++ pos) =
      (reaches plan (Pattern.position p ++ pos) || reaches more pos) := by
  cases pos with
  | nil => rw [List.append_nil, reaches_append, h.reaches, Bool.true_or, Bool.true_or]
  | cons s pos =>
      rw [reaches_append, Bool.eq_iff_iff, Bool.or_eq_true, Bool.or_eq_true]
      refine or_congr_right ?_
      rw [reaches_iff, reaches_iff]
      simp only [List.mem_map, exists_exists_and_eq_and, Registration.position, Registration.below,
        Pattern.position_append, List.prefix_append_right_inj, List.append_eq_nil_iff,
        List.cons_ne_nil, and_false]

/-- Below a pattern that is covered, registrations change nothing at positions that are not below
the pattern too. -/
theorem content_below_outside (h : Covers plan p) (hpos : ¬Pattern.position p <+: pos)
    (more : Plan H M) : content (plan ++ more.map (Registration.below p)) pos = content plan pos := by
  induction more using List.reverseRecOn with
  | nil => rw [List.map_nil, List.append_nil]
  | append_singleton more r ih =>
      rw [List.map_append, List.map_singleton, ← List.append_assoc, content_append_singleton, ih]
      have hne : (r.below p).position ≠ pos := by
        rintro rfl
        exact hpos (Pattern.position_prefix (List.prefix_append p r.pattern))
      rw [Registration.content_of_ne hne]
      refine append_names_of_mem fun name hname => h.mem_names ?_
      by_cases hlength : pos.length < p.length
      · exact (Pattern.nameAt_append_left r.pattern hlength).symm.trans hname
      · refine absurd ?_ hpos
        have hall : pos <+: (r.below p).position := Pattern.prefix_of_nameAt hname
        have hp : Pattern.position p <+: (r.below p).position :=
          Pattern.position_prefix (List.prefix_append p r.pattern)
        refine List.prefix_of_prefix_length_le hp hall ?_
        rw [Pattern.length_position]
        exact Nat.le_of_not_lt hlength

theorem reaches_below_outside (h : Covers plan p) (hpos : ¬Pattern.position p <+: pos)
    (more : Plan H M) : reaches (plan ++ more.map (Registration.below p)) pos = reaches plan pos := by
  rw [reaches_append, Bool.or_eq_left_iff_imp]
  intro hmore
  rw [reaches_iff] at hmore ⊢
  rcases hmore with rfl | ⟨r, hr, hpre⟩
  · exact Or.inl rfl
  · obtain ⟨r, -, rfl⟩ := List.mem_map.mp hr
    have hp : Pattern.position p <+: (r.below p).position :=
      Pattern.position_prefix (List.prefix_append p r.pattern)
    rcases List.prefix_or_prefix_of_prefix hp hpre with hle | hle
    · exact absurd hle hpos
    · rcases reaches_iff.mp h.reaches with hnil | ⟨r, hr, hreach⟩
      · rw [hnil] at hle
        exact Or.inl (List.prefix_nil.mp hle)
      · exact Or.inr ⟨r, hr, hle.trans hreach⟩

end Below

/-- A segment more: the position before it gets the name of the segment, and one more position is
reached. -/
theorem content_child {p : Pattern} (h : Covers plan p) (s : PatternSegment) (pos : Position) :
    content (plan ++ [⟨p ++ [s], .view⟩]) pos =
      if pos = Pattern.position p then
        (content plan pos).append { Content.empty with names := s.name?.toList }
      else content plan pos := by
  have hbelow (q : Position) : (⟨p ++ [s], .view⟩ : Registration H M).content
      (Pattern.position p ++ q) = (⟨[s], .view⟩ : Registration H M).content q :=
    Registration.content_below p ⟨[s], .view⟩ q
  by_cases hpos : Pattern.position p <+: pos
  · obtain ⟨q, rfl⟩ := hpos
    rw [content_append_singleton, hbelow]
    cases q with
    | nil =>
        have hne : (⟨[s], .view⟩ : Registration H M).position ≠ [] := List.cons_ne_nil s.step []
        rw [if_pos (List.append_nil _), Registration.content_of_ne hne]
        rfl
    | cons t q =>
        have hempty : (⟨[s], .view⟩ : Registration H M).content (t :: q) = .empty := by
          by_cases hlast : [s.step] = t :: q
          · exact hlast ▸ Registration.content_position ⟨[s], .view⟩
          · refine Registration.content_of_not_prefix fun hpre => ?_
            have hlength : (t :: q).length = 1 := Nat.le_antisymm hpre.length_le (Nat.le_add_left 1 _)
            exact hlast (hpre.eq_of_length hlength).symm
        rw [hempty, Content.append_empty, if_neg]
        intro hself
        exact List.cons_ne_nil t q (List.append_right_eq_self.mp hself)
  · have hone : [⟨p ++ [s], .view⟩] =
        [(⟨[s], .view⟩ : Registration H M)].map (Registration.below p) := rfl
    rw [hone, content_below_outside h hpos, if_neg]
    rintro rfl
    exact hpos List.prefix_rfl

theorem reaches_child {p : Pattern} (h : Covers plan p) (s : PatternSegment) (pos : Position) :
    reaches (plan ++ [⟨p ++ [s], .view⟩]) pos =
      (reaches plan pos || decide (pos = Pattern.position p ++ [s.step])) := by
  rw [reaches_append, Bool.eq_iff_iff, Bool.or_eq_true, Bool.or_eq_true, decide_eq_true_iff,
    @reaches_iff _ _ [_]]
  have hposition : (⟨p ++ [s], .view⟩ : Registration H M).position =
      Pattern.position p ++ [s.step] := Pattern.position_append p [s]
  constructor
  · rintro (hplan | rfl | ⟨r, hr, hpre⟩)
    · exact Or.inl hplan
    · exact Or.inl rfl
    · rw [List.mem_singleton] at hr
      rw [hr, hposition, List.prefix_concat_iff] at hpre
      rcases hpre with hlast | hbefore
      · exact Or.inr hlast
      · refine Or.inl (reaches_iff.mpr ?_)
        rcases reaches_iff.mp h.reaches with hnil | ⟨r, hr, hreach⟩
        · rw [hnil] at hbefore
          exact Or.inl (List.prefix_nil.mp hbefore)
        · exact Or.inr ⟨r, hr, hbefore.trans hreach⟩
  · rintro (hplan | rfl)
    · exact Or.inl hplan
    · exact Or.inr (Or.inr ⟨_, List.mem_singleton_self _, hposition ▸ List.prefix_rfl⟩)

/-! ### Views -/

/-- A view of what is covered says nothing new. -/
theorem same_view {p : Pattern} (h : Covers plan p) : Same (plan ++ [⟨p, .view⟩]) plan := by
  intro pos
  constructor
  · rw [content_append_singleton]
    have hcontent : (⟨p, .view⟩ : Registration H M).content pos =
        { Content.empty with names := (Pattern.nameAt pos p).toList } := by
      simp [Registration.content, Item.content]
    rw [hcontent]
    exact append_names_of_mem fun name hname => h.mem_names hname
  · rw [reaches_append, Bool.or_eq_left_iff_imp]
    intro hview
    rw [reaches_iff] at hview ⊢
    rcases hview with rfl | ⟨r, hr, hpre⟩
    · exact Or.inl rfl
    · rw [List.mem_singleton] at hr
      subst hr
      rcases reaches_iff.mp h.reaches with hnil | ⟨r, hr, hreach⟩
      · rw [Registration.position, hnil] at hpre
        exact Or.inl (List.prefix_nil.mp hpre)
      · exact Or.inr ⟨r, hr, hpre.trans hreach⟩

/-- A view on the way to a registration says nothing that the registration does not say. -/
theorem same_view_append (plan : Plan H M) {p : Pattern} {r : Registration H M} (h : p <+: r.pattern) :
    Same (plan ++ [⟨p, .view⟩] ++ [r]) (plan ++ [r]) := by
  intro pos
  constructor
  · rw [content_append_singleton, content_append_singleton, content_append_singleton,
      Content.append_assoc]
    refine congrArg _ ?_
    have hcontent : (⟨p, .view⟩ : Registration H M).content pos =
        { Content.empty with names := (Pattern.nameAt pos p).toList } := by
      simp [Registration.content, Item.content]
    have hnames : addNames (Pattern.nameAt pos p).toList (Pattern.nameAt pos r.pattern).toList =
        (Pattern.nameAt pos r.pattern).toList := by
      cases hname : Pattern.nameAt pos p with
      | none => cases Pattern.nameAt pos r.pattern <;> rfl
      | some name =>
          rw [Pattern.nameAt_of_prefix h hname]
          exact addNames_of_mem (List.mem_singleton_self name)
    rw [hcontent]
    simp only [Content.append, Content.empty, Registration.content, hnames, List.nil_append,
      Option.none_or]
  · simp only [reaches_append]
    rw [Bool.or_assoc]
    refine congrArg _ (Bool.or_eq_right_iff_imp.mpr fun hview => ?_)
    rw [reaches_iff] at hview ⊢
    refine hview.imp_right fun ⟨r', hr', hpre⟩ => ⟨r, List.mem_singleton_self r, ?_⟩
    rw [List.mem_singleton] at hr'
    subst hr'
    exact hpre.trans (Pattern.position_prefix h)

/-- A registration differs from a view of its pattern at its own position only. -/
theorem content_view (plan : Plan H M) (r : Registration H M) (pos : Position) :
    content (plan ++ [r]) pos =
      (if r.position = pos then
        (content (plan ++ [⟨r.pattern, .view⟩]) pos).append r.item.content
      else content (plan ++ [⟨r.pattern, .view⟩]) pos) := by
  rw [content_append_singleton, content_append_singleton]
  split
  · next hpos =>
      subst hpos
      have hview : (⟨r.pattern, .view⟩ : Registration H M).content r.position = .empty :=
        Registration.content_position ⟨r.pattern, .view⟩
      rw [Registration.content_position, hview, Content.append_empty]
  · next hpos =>
      have hview : (⟨r.pattern, .view⟩ : Registration H M).position ≠ pos := hpos
      rw [Registration.content_of_ne hpos, Registration.content_of_ne hview]

theorem reaches_view (plan : Plan H M) (r : Registration H M) (pos : Position) :
    reaches (plan ++ [r]) pos = reaches (plan ++ [⟨r.pattern, .view⟩]) pos := by
  rw [reaches_append, reaches_append]
  rfl

end Plan

end Trie

end WebResource
