import Mathlib.Data.List.Forall2
import WebResource.Client.Basic
import WebResource.Proofs.Context.Params
import WebResource.Proofs.Text.Percent
import WebResource.Proofs.Text.Split

namespace WebResource.Client

/-!
# Patterns of URLs

A URL is made of a pattern segment by segment: a `:name` segment becomes the escaped value of the
parameter, which the other end reads back, and all others stay. The first name without a value is
reported.
-/

variable {c : Context} {segment written : List Char}

/-- The name of the parameter that a segment of a pattern stands for. -/
def parameter? : List Char → Option String
  | ':' :: name => some (String.ofList name)
  | _ => none

/-- Every name in a segment has a value. -/
def Valued (c : Context) (segment : List Char) : Prop :=
  ∀ name ∈ parameter? segment, name ∈ c.values.pathParams.names

instance (c : Context) : DecidablePred (Valued c) := fun segment =>
  inferInstanceAs (Decidable (∀ name ∈ parameter? segment, name ∈ c.values.pathParams.names))

/-- What may stand in a URL for a segment of a pattern. -/
structure Expands (c : Context) (segment written : List Char) : Prop where
  kept : parameter? segment = none → written = segment
  escaped : ∀ name ∈ parameter? segment, Percent.Written written
  confined : ∀ name ∈ parameter? segment, '/' ∉ written ∧ '?' ∉ written ∧ '#' ∉ written
  decoded : ∀ name ∈ parameter? segment,
    c.values.pathParams.Latest name (Percent.decodeSegment (String.ofList written))

/-! ## One segment -/

theorem expandSegment_eq (c : Context) (segment : List Char) :
    expandSegment c segment =
      match parameter? segment with
      | none => .ok segment
      | some name =>
        match c.param? name with
        | some value => .ok (Percent.encodeSegment value).toList
        | none => .error (.missingParam name) := by
  unfold expandSegment
  split
  · rfl
  · next hcolon =>
      have hnone : parameter? segment = none := by
        unfold parameter?
        split
        · exact absurd rfl (hcolon _)
        · rfl
      rw [hnone]

theorem expandSegment_of_missing {name : String} (h : parameter? segment = some name)
    (hname : name ∉ c.values.pathParams.names) :
    expandSegment c segment = .error (.missingParam name) := by
  have hparam : c.param? name = none := PathParams.get_eq_none_iff.mpr hname
  rw [expandSegment_eq, h]
  simp only [hparam]

theorem expands_encodeSegment {name value : String} (h : parameter? segment = some name)
    (hvalue : c.values.pathParams.Latest name value) :
    Expands c segment (Percent.encodeSegment value).toList := by
  have hsame {n : String} (hn : n ∈ parameter? segment) : n = name := Option.some.inj (hn.symm.trans h)
  constructor
  · intro hnone
    rw [h] at hnone
    cases hnone
  · exact fun _ _ => Percent.written_encodeSegment value
  · exact fun _ _ => ⟨Percent.not_mem_encodeSegment (by decide),
      Percent.not_mem_encodeSegment (by decide), Percent.not_mem_encodeSegment (by decide)⟩
  · intro n hn
    rw [hsame hn, String.ofList_toList, Percent.decodeSegment_encodeSegment]
    exact hvalue

theorem expands_self (h : parameter? segment = none) : Expands c segment segment := by
  have hnone {P : String → Prop} : ∀ name ∈ parameter? segment, P name := by
    rw [h]
    exact fun _ hname => absurd hname (Option.not_mem_none _)
  exact ⟨fun _ => rfl, hnone, hnone, hnone⟩

theorem exists_expandSegment (h : Valued c segment) :
    ∃ written, expandSegment c segment = .ok written ∧ Expands c segment written := by
  rw [expandSegment_eq]
  cases hname : parameter? segment with
  | none => exact ⟨segment, rfl, expands_self hname⟩
  | some name =>
      obtain ⟨value, hvalue⟩ : ∃ value, c.param? name = some value := by
        rw [← Option.isSome_iff_exists, Option.isSome_iff_ne_none]
        exact fun hnone => PathParams.get_eq_none_iff.mp hnone (h name hname)
      refine ⟨(Percent.encodeSegment value).toList, by simp only [hvalue], ?_⟩
      exact expands_encodeSegment hname (PathParams.get_eq_some_iff.mp hvalue)

theorem Expands.slash_notMem (h : Expands c segment written) (hslash : '/' ∉ segment) : '/' ∉ written := by
  cases hname : parameter? segment with
  | none => exact h.kept hname ▸ hslash
  | some name => exact (h.confined name hname).1

/-! ## All segments -/

theorem mapM_of_error {ε α β : Type} {f : α → Except ε β} {front back : List α} {a : α} {e : ε}
    (hfront : ∀ b ∈ front, ∃ r, f b = .ok r) (ha : f a = .error e) :
    (front ++ a :: back).mapM f = .error e := by
  induction front with
  | nil =>
      rw [List.nil_append, List.mapM_cons, ha]
      rfl
  | cons b front ih =>
      obtain ⟨⟨r, hr⟩, hfront⟩ := List.forall_mem_cons.mp hfront
      rw [List.cons_append, List.mapM_cons, hr, ih hfront]
      rfl

theorem exists_expanded {segments : List (List Char)} (hslash : ∀ s ∈ segments, '/' ∉ s)
    (hvalues : ∀ s ∈ segments, Valued c s) :
    ∃ ws, segments.mapM (expandSegment c) = .ok ws ∧ List.Forall₂ (Expands c) segments ws ∧
      ∀ w ∈ ws, '/' ∉ w := by
  induction segments with
  | nil => exact ⟨[], rfl, .nil, List.forall_mem_nil _⟩
  | cons s segments ih =>
      obtain ⟨hs, hslash⟩ := List.forall_mem_cons.mp hslash
      obtain ⟨hvalue, hvalues⟩ := List.forall_mem_cons.mp hvalues
      obtain ⟨w, hw, hexpands⟩ := exists_expandSegment hvalue
      obtain ⟨ws, hws, hrest, hclean⟩ := ih hslash hvalues
      refine ⟨w :: ws, ?_, .cons hexpands hrest, ?_⟩
      · rw [List.mapM_cons, hw, hws]
        rfl
      · exact List.forall_mem_cons.mpr ⟨hexpands.slash_notMem hs, hclean⟩

/-- The first name without a value is reported. If there is none, the URL has the segments of the
pattern, each kept, or with the value of its name escaped in such a way that it is read back and can
neither end the segment nor the path. -/
theorem expandPattern_expands (pattern : String) (c : Context) :
    (∀ front segment back name, Text.splitOn '/' pattern.toList = front ++ segment :: back →
      (∀ s ∈ front, Valued c s) → parameter? segment = some name →
        name ∉ c.values.pathParams.names → expandPattern pattern c = .error (.missingParam name)) ∧
    ((∀ s ∈ Text.splitOn '/' pattern.toList, Valued c s) →
      ∃ url, expandPattern pattern c = .ok url ∧
        List.Forall₂ (Expands c) (Text.splitOn '/' pattern.toList) (Text.splitOn '/' url.toList)) := by
  constructor
  · intro front segment back name hsplit hfront hparameter hname
    have hvalues : ∀ s ∈ front, ∃ w, expandSegment c s = .ok w := fun s hs => by
      obtain ⟨w, hw, -⟩ := exists_expandSegment (hfront s hs)
      exact ⟨w, hw⟩
    rw [expandPattern, hsplit, mapM_of_error hvalues (expandSegment_of_missing hparameter hname)]
    rfl
  · intro hvalues
    obtain ⟨ws, hws, hexpands, hslash⟩ :=
      exists_expanded (fun _ hs => Text.notMem_of_mem_splitOn hs) hvalues
    have hne : ws ≠ [] := fun hnil =>
      Text.splitOn_ne_nil '/' pattern.toList (List.forall₂_nil_right_iff.mp (hnil ▸ hexpands))
    refine ⟨String.ofList (Text.joinWith '/' ws), ?_, ?_⟩
    · rw [expandPattern, hws]
      rfl
    · rw [String.toList_ofList, Text.splitOn_joinWith hne hslash]
      exact hexpands

/-! A value that looks like an escape and holds what could end its segment, behind an older value of
the same name; and a pattern with two names that have no value. -/

def tenantContext : Context :=
  ((Context.background.withParam "tenant" "old").withParam "id" "7").withParam "tenant" "%2F/?#ü"

theorem expandPattern_expands_tenant :
    expandPattern "http://h/:tenant/:nobody/:none" tenantContext = .error (.missingParam "nobody") ∧
      expandPattern "http://h/:tenant/x" tenantContext = .ok "http://h/%252F%2F%3F%23%C3%BC/x" ∧
        List.Forall₂ (Expands tenantContext) (Text.splitOn '/' "http://h/:tenant/x".toList)
          (Text.splitOn '/' "http://h/%252F%2F%3F%23%C3%BC/x".toList) := by
  obtain ⟨url, hurl, hexpands⟩ :=
    (expandPattern_expands "http://h/:tenant/x" tenantContext).2 (by decide)
  have hvalue : expandPattern "http://h/:tenant/x" tenantContext =
      .ok "http://h/%252F%2F%3F%23%C3%BC/x" := by decide +kernel
  obtain rfl := Except.ok.inj (hurl.symm.trans hvalue)
  refine ⟨?_, hurl, hexpands⟩
  exact (expandPattern_expands "http://h/:tenant/:nobody/:none" tenantContext).1
    ["http:".toList, [], ['h'], ":tenant".toList] ":nobody".toList [":none".toList] "nobody"
    (by decide) (by decide) (by decide) (by decide)

end WebResource.Client
