import WebResource.Context.Params

namespace WebResource.PathParams

/-!
# Reading parameters

A value that is recorded hides the earlier values of its names. The map of all parameters has under
each name the value that is read by the name alone.
-/

variable {ps : PathParams} {name : String}

/-- The value that was recorded last for a name: those recorded after it have other names. -/
def Latest (ps : PathParams) (name value : String) : Prop :=
  ∃ newer older, ps.chain = newer ++ (name, value) :: older ∧ ∀ p ∈ newer, p.1 ≠ name

theorem get_eq_some_iff {value : String} : ps.get name = some value ↔ ps.Latest name value := by
  rw [get, Option.map_eq_some_iff]
  constructor
  · rintro ⟨p, hp, rfl⟩
    obtain ⟨hname, newer, older, hchain, hnewer⟩ := List.find?_eq_some_iff_append.mp hp
    obtain rfl := beq_iff_eq.mp hname
    exact ⟨newer, older, hchain, fun q hq => by simpa using hnewer q hq⟩
  · rintro ⟨newer, older, hchain, hnewer⟩
    refine ⟨(name, value), List.find?_eq_some_iff_append.mpr ⟨beq_self_eq_true name, ?_⟩, rfl⟩
    exact ⟨newer, older, hchain, fun q hq => by simpa using hnewer q hq⟩

def names (ps : PathParams) : List String := ps.chain.map Prod.fst

theorem get_eq_none_iff : ps.get name = none ↔ name ∉ ps.names := by
  rw [get, names, Option.map_eq_none_iff, List.find?_eq_none]
  simp only [beq_iff_eq, List.mem_map, not_exists, not_and]

theorem get_add (ps : PathParams) (n value name : String) :
    (ps.add n value).get name = if n = name then some value else ps.get name := by
  simp only [get, add, List.find?_cons]
  by_cases h : n = name
  · simp [h]
  · rw [beq_false_of_ne h, if_neg h]

theorem get_addAll (ps : PathParams) (names : List String) (value name : String) :
    (ps.addAll names value).get name = if name ∈ names then some value else ps.get name := by
  induction names generalizing ps with
  | nil => rfl
  | cons n names ih =>
      have hrest : ps.addAll (n :: names) value = (ps.add n value).addAll names value := rfl
      rw [hrest, ih, get_add]
      by_cases h : n = name
      · simp [h]
      · simp [h, Ne.symm h]

theorem hasName_iff {m : List (String × String)} :
    hasName name m = true ↔ (m.find? (·.1 == name)).isSome := by
  rw [hasName, List.find?_isSome, List.any_eq_true]

/-- Each step of the map leaves what is found in it so far, and else finds what comes next. -/
theorem find?_foldl (chain m : List (String × String)) (name : String) :
    (chain.foldl (fun m p => if hasName p.1 m then m else m ++ [p]) m).find? (·.1 == name) =
      (m.find? (·.1 == name)).or (chain.find? (·.1 == name)) := by
  induction chain generalizing m with
  | nil => rw [List.foldl_nil, List.find?_nil, Option.or_none]
  | cons p chain ih =>
      rw [List.foldl_cons, ih, List.find?_cons]
      by_cases hp : p.1 = name
      · subst hp
        by_cases hhas : hasName p.1 m = true
        · obtain ⟨q, hq⟩ := Option.isSome_iff_exists.mp (hasName_iff.mp hhas)
          rw [if_pos hhas, hq, Option.some_or, Option.some_or]
        · have hnone : m.find? (·.1 == p.1) = none := by
            rw [← Option.not_isSome_iff_eq_none]
            exact fun h => hhas (hasName_iff.mpr h)
          rw [if_neg hhas, List.find?_append, hnone]
          simp
      · have hskip : (p.1 == name) = false := beq_false_of_ne hp
        have hstep : (if hasName p.1 m then m else m ++ [p]).find? (·.1 == name) =
            m.find? (·.1 == name) := by
          split
          · rfl
          · rw [List.find?_append]
            simp [hskip]
        rw [hskip, hstep]

theorem find?_toMap (ps : PathParams) (name : String) :
    (ps.toMap.find? (·.1 == name)).map Prod.snd = ps.get name := by
  rw [toMap, find?_foldl, List.find?_nil, Option.none_or, get]

end WebResource.PathParams
