import Mathlib.Data.Fintype.EquivFin
import Mathlib.Data.List.Forall2
import WebResource.Proofs.Router.Mounting
import WebResource.Proofs.Router.Opening
import WebResource.Proofs.Router.Serving

namespace WebResource.Trie

/-!
# Requests that follow a way

A change to the nodes on the way of a pattern is seen only by the requests that come to one of them and
go on as the pattern does. Every way through a trie is followed by some request.
-/

/-- A segment of a path that a step may take. -/
def Step.Takes : Step → String → Prop
  | .literal text, s => s = text
  | .dynamic, _ => True

/-- A path that follows a position and then takes the first step of a rest, or ends where the rest
does. -/
inductive Meets : Position → Position → List String → Prop where
  | «end» : Meets [] [] []
  | here {step : Step} {s : String} (rest : Position) (left : List String) (h : step.Takes s) :
      Meets [] (step :: rest) (s :: left)
  | next {step : Step} {s : String} {pos rest : Position} {left : List String} (h : step.Takes s)
      (hmore : Meets pos rest left) : Meets (step :: pos) rest (s :: left)

variable {H M : Type} {t t' : Trie H M} {i j k : NodeId} {pos : Position}
  {ahead : NodeId → Position → Prop} {left : List String} {w : Walk H M}

/-! ## What a change leaves alone -/

/-- A trie that differs from another one only in what is ahead at the nodes. -/
structure Alters (t t' : Trie H M) (ahead : NodeId → Position → Prop) : Prop where
  patterns : ∀ {k rest}, k < t.size → ¬ahead k rest → (t'.node k).patterns = (t.node k).patterns
  fallback : ∀ {k rest}, k < t.size → ¬ahead k rest → (t'.node k).fallback = (t.node k).fallback
  middlewares : ∀ {k rest}, k < t.size → ¬ahead k rest →
    (t'.node k).middlewares = (t.node k).middlewares
  methods : ∀ {k}, k < t.size → ¬ahead k [] → (t'.node k).methods = (t.node k).methods
  literal : ∀ {k s}, k < t.size → (∀ rest, ¬ahead k (.literal s :: rest)) →
    (t'.node k).literal? s = (t.node k).literal? s
  dynamic : ∀ {k}, k < t.size → (∀ rest, ¬ahead k (.dynamic :: rest)) →
    (t'.node k).dynamic = (t.node k).dynamic

theorem visit_eq_of (hpatterns : (t'.node w.node).patterns = (t.node w.node).patterns)
    (hmiddlewares : (t'.node w.node).middlewares = (t.node w.node).middlewares) (uri : String)
    (left : List String) : t'.visit uri left w = t.visit uri left w := by
  simp only [visit, hpatterns, hmiddlewares]

/-- A walk that meets nothing that is ahead goes as before. -/
theorem Alters.walk_eq (h : Alters t t' ahead) (ht : Sound t) (hw : w.node < t.size)
    (hout : ∀ pos k rest, t.locate w.node pos = some k → ahead k rest → ¬Meets pos rest left)
    (method uri : String) : t'.walk method uri left w = t.walk method uri left w := by
  induction left generalizing w with
  | nil =>
      have hhere : ¬ahead w.node [] := fun ha => hout [] w.node [] rfl ha .end
      rw [walk, walk, visit_eq_of (h.patterns hw hhere) (h.middlewares hw hhere), node_visit]
      simp only [Node.method?, h.methods hw hhere, h.fallback hw hhere]
  | cons s left ih =>
      have hhere : ¬ahead w.node [.dynamic] := fun ha => hout [] w.node _ rfl ha (.here [] left trivial)
      have hliteral : (t'.node w.node).literal? s = (t.node w.node).literal? s :=
        h.literal hw fun rest ha => hout [] w.node _ rfl ha (.here rest left rfl)
      have hdynamic : (t'.node w.node).dynamic = (t.node w.node).dynamic :=
        h.dynamic hw fun rest ha => hout [] w.node _ rfl ha (.here rest left trivial)
      have hnode := node_visit (t := t) uri (s :: left) w
      rw [walk, walk, visit_eq_of (h.patterns hw hhere) (h.middlewares hw hhere), hnode]
      generalize t.visit uri (s :: left) w = v at hnode
      simp only [hliteral, hdynamic, h.fallback hw hhere]
      cases hl : (t.node w.node).literal? s with
      | some j =>
          have hnext : (t.node w.node).next (.literal s) = some j := hl
          apply ih (ht.lt hnext)
          intro pos k rest hk ha hm
          exact hout (.literal s :: pos) k rest ((locate_cons hnext pos).trans hk) ha (.next rfl hm)
      | none =>
          cases hd : (t.node w.node).dynamic with
          | none => rfl
          | some d =>
              have hnext := next_of_dynamic hd
              apply ih (ht.lt hnext)
              intro pos k rest hk ha hm
              exact hout (.dynamic :: pos) k rest ((locate_cons hnext pos).trans hk) ha
                (.next trivial hm)

theorem Alters.dispatch_eq (h : Alters t t' ahead) (ht : Sound t) (hi : i < t.size)
    {cursor : PathCursor}
    (hout : ∀ pos k rest, t.locate i pos = some k → ahead k rest → ¬Meets pos rest cursor.left)
    (method : String) (params : PathParams) :
    t'.dispatch i method cursor params = t.dispatch i method cursor params :=
  h.walk_eq ht hi hout method cursor.requestUri

/-- All requests that come to a node with a path of a kind are dispatched as before. -/
def Stays (t t' : Trie H M) (i : NodeId) (P : List String → Prop) : Prop :=
  ∀ method cursor params, P cursor.left →
    t'.dispatch i method cursor params = t.dispatch i method cursor params

/-! ## Every way is followed -/

/-- A segment that follows a step for sure, and is none of those to be avoided unless it has to be. -/
def Step.Follows (avoid : List String) (step : Step) (s : String) : Prop :=
  step = .literal s ∨ step = .dynamic ∧ s ∉ avoid

theorem exists_notMem (l : List String) : ∃ s, s ∉ l := by
  obtain ⟨s, hs⟩ := Infinite.exists_notMem_finset l.toFinset
  exact ⟨s, fun hmem => hs (List.mem_toFinset.mpr hmem)⟩

/-- A path on which a walk goes from a node to another one by the steps of a position. -/
inductive Walks (t : Trie H M) : NodeId → Position → List String → NodeId → Prop where
  | nil (i : NodeId) : t.Walks i [] [] i
  | literal {i j k : NodeId} {s : String} {pos : Position} {left : List String}
      (h : (t.node i).literal? s = some j) (hmore : t.Walks j pos left k) :
      t.Walks i (.literal s :: pos) (s :: left) k
  | dynamic {i k : NodeId} {s : String} {pos : Position} {left : List String} {d : DynamicChild}
      (h : (t.node i).literal? s = none) (hd : (t.node i).dynamic = some d)
      (hmore : t.Walks d.node pos left k) : t.Walks i (.dynamic :: pos) (s :: left) k

/-- How many names the nodes on the way to a position record. -/
def recorded (t : Trie H M) : NodeId → Position → Nat
  | _, [] => 0
  | i, .literal s :: pos => ((t.node i).literal? s).elim 0 fun j => t.recorded j pos
  | i, .dynamic :: pos => (t.node i).dynamic.elim 0 fun d => d.names.length + t.recorded d.node pos

theorem exists_walks (avoid : List String) (hj : t.locate i pos = some j) :
    ∃ left, List.Forall₂ (Step.Follows avoid) pos left ∧ t.Walks i pos left j := by
  induction pos generalizing i with
  | nil =>
      obtain rfl := Option.some.inj hj
      exact ⟨[], .nil, .nil i⟩
  | cons step pos ih =>
      obtain ⟨c, hc, hj⟩ := Option.bind_eq_some_iff.mp hj
      obtain ⟨left, hleft, hwalks⟩ := ih hj
      cases step with
      | literal s => exact ⟨s :: left, .cons (Or.inl rfl) hleft, .literal hc hwalks⟩
      | dynamic =>
          -- Literal children come first, so the segment must be none of theirs.
          obtain ⟨s, hs⟩ := exists_notMem (avoid ++ (t.node i).literals.map Prod.fst)
          obtain ⟨havoid, hnew⟩ := not_or.mp (mt List.mem_append.mpr hs)
          obtain ⟨d, hd, rfl⟩ := Option.map_eq_some_iff.mp hc
          refine ⟨s :: left, .cons (Or.inr ⟨rfl, havoid⟩) hleft, ?_⟩
          exact .dynamic (literal?_eq_none_iff.mpr hnew) hd hwalks

theorem params_visit (uri : String) (left : List String) (w : Walk H M) :
    (t.visit uri left w).params = w.params := by
  simp only [visit]
  split <;> rfl

theorem length_addAll (params : PathParams) (names : List String) (value : String) :
    (params.addAll names value).chain.length = names.length + params.chain.length := by
  induction names generalizing params with
  | nil => exact (Nat.zero_add _).symm
  | cons name names ih =>
      have hrest := ih (params.add name value)
      rw [PathParams.add, List.length_cons] at hrest
      rw [List.length_cons, Nat.succ_add, ← Nat.add_succ, ← hrest]
      rfl

/-- A walk that goes by the steps of a position records all names on the way. -/
theorem Walks.exists_walk (h : t.Walks i pos left j) (method uri : String) {w : Walk H M}
    (hw : w.node = i) :
    ∃ w' : Walk H M, w'.node = j ∧ t.walk method uri left w = t.walk method uri [] w' ∧
      w'.params.chain.length = t.recorded i pos + w.params.chain.length := by
  induction h generalizing w with
  | nil i => exact ⟨w, hw, rfl, (Nat.zero_add _).symm⟩
  | @literal i j k s pos left h hmore ih =>
      subst hw
      let v := t.visit uri (s :: left) w
      obtain ⟨w', hk, hwalk, hlength⟩ := ih (w := { v with node := j, passed := v.passed ++ [s] }) rfl
      refine ⟨w', hk, ?_, ?_⟩
      · rw [← hwalk, walk]
        simp only [node_visit, h]
        rfl
      · rw [hlength, recorded, h, Option.elim_some, params_visit]
  | @dynamic i k s pos left d h hd hmore ih =>
      subst hw
      let v := t.visit uri (s :: left) w
      obtain ⟨w', hk, hwalk, hlength⟩ := ih (w := { v with
        node := d.node
        passed := v.passed ++ [s]
        params := v.params.addAll d.names (Percent.decodeSegment s) }) rfl
      refine ⟨w', hk, ?_, ?_⟩
      · rw [← hwalk, walk]
        simp only [node_visit, h, hd]
        rfl
      · rw [hlength, recorded, hd, Option.elim_some, length_addAll, params_visit]
        omega

/-- A request whose walk ends at a node with a handler for it gets there. -/
theorem Walks.exists_dispatch (h : t.Walks i pos left j) {method : String} {handler : H}
    (hfound : ((t.node j).method? method <|> (t.node j).fallback) = some handler) (uri : String)
    (passed : List String) (params : PathParams) :
    ∃ r : Route H M, t.dispatch i method ⟨uri, passed, left⟩ params = some r ∧ r.handler = handler ∧
      r.params.chain.length = t.recorded i pos + params.chain.length := by
  obtain ⟨w, rfl, hwalk, hlength⟩ :=
    h.exists_walk method uri (w := ⟨i, passed, params, [], none⟩) rfl
  have hend : t.walk method uri [] w = settle uri [] (t.visit uri [] w)
      ((t.node w.node).method? method <|> (t.node w.node).fallback) := by
    rw [walk, node_visit]
  rw [hfound] at hend
  refine ⟨_, hwalk.trans hend, rfl, ?_⟩
  exact (congrArg (List.length ∘ PathParams.chain) (params_visit uri [] w)).trans hlength

end WebResource.Trie
