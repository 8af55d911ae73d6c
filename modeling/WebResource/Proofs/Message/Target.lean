import Mathlib.Data.List.Infix
import WebResource.Proofs.Message.Uri
import WebResource.Proofs.Path
import WebResource.Resource.Serve

namespace WebResource

/-!
# Another path for a target

A target that has been read is made of the characters that its parts may hold. So a path of such
characters can be put into it, with the query as it was, and what is left of a path while it is routed
is one.
-/

namespace Uri

/-- A target with nothing before its path. -/
def IsOriginForm (u : Uri) : Prop :=
  u.scheme = none ∧ u.authority = none ∧ u.rawPath.toList.head? = some '/'

/-- A target with all of its parts. -/
def IsAbsoluteForm (u : Uri) : Prop := u.scheme.isSome ∧ u.authority.isSome

/-- The characters of a path and a query are those that may stand there. -/
structure IsSound (u : Uri) : Prop where
  path : ∀ c ∈ u.rawPath.toList, isPathChar c = true
  query : ∀ q ∈ u.query, ∀ c ∈ q.toList, isQueryChar c = true

variable {u : Uri} {path : String}

theorem isPathPart_of_isPathChar {c : Char} (h : isPathChar c = true) : IsPathPart c := by
  constructor <;> rintro rfl <;> exact absurd h (by decide)

theorem ne_hash_of_isQueryChar {c : Char} (h : isQueryChar c = true) : (c != '#') = true := by
  rw [bne_iff_ne]
  rintro rfl
  exact absurd h (by decide)

theorem readTarget_query {p q : List Char} (hp : ∀ c ∈ p, isPathChar c = true)
    (hq : ∀ c ∈ q, isQueryChar c = true) :
    readTarget (p ++ '?' :: q) = .ok (String.ofList p, some (String.ofList q)) := by
  have htake : (p ++ '?' :: q).takeWhile (fun c => c != '?' && c != '#') = p := by
    rw [List.takeWhile_append_of_pos, List.takeWhile_cons_of_neg (by decide), List.append_nil]
    intro c hc
    have hpart := isPathPart_of_isPathChar (hp c hc)
    simp [hpart.1, hpart.2]
  have hbefore : beforeFragment q = q := by
    rw [beforeFragment, ← List.append_nil q, List.takeWhile_append_of_pos]
    · rfl
    · exact fun c hc => ne_hash_of_isQueryChar (hq c hc)
  simp only [readTarget, htake, List.drop_left, List.all_eq_true.mpr hp, hbefore,
    List.all_eq_true.mpr hq]
  rfl

theorem readTarget_queryText (hu : u.IsSound) (hpath : ∀ c ∈ path.toList, isPathChar c = true) :
    readTarget (path ++ u.queryText).toList = .ok (path, u.query) := by
  rw [String.toList_append, queryText]
  cases hquery : u.query with
  | none =>
      have hempty : path.toList ++ ("" : String).toList = path.toList := List.append_nil _
      rw [hempty, readTarget_of_isPathPart fun c hc => isPathPart_of_isPathChar (hpath c hc),
        if_pos (List.all_eq_true.mpr hpath), String.ofList_toList]
  | some q =>
      have hmark : ("?" ++ q).toList = '?' :: q.toList := String.toList_append
      simp only [hmark]
      rw [readTarget_query hpath (hu.query q hquery), String.ofList_toList, String.ofList_toList]

/-- A path that could stand in a target can be put into one that has a path. -/
theorem withPath_eq (hu : u.IsSound) (hform : u.IsOriginForm ∨ u.IsAbsoluteForm)
    (hpath : ∀ c ∈ path.toList, isPathChar c = true) :
    u.withPath path = some { u with rawPath := path } := by
  have hkept : (u.scheme.isNone && u.authority.isSome) = false := by
    rcases hform with ⟨-, hauthority, -⟩ | ⟨hscheme, -⟩
    · rw [hauthority]
      exact Bool.and_false _
    · rw [Option.isNone_eq_false_iff.mpr hscheme]
      exact Bool.false_and _
  rw [withPath, readTarget_queryText hu hpath]
  simp only [hkept]
  rfl

theorem IsSound.path_chars (h : u.IsSound) : ∀ c ∈ u.path.toList, isPathChar c = true := by
  unfold Uri.path
  split
  · split <;> exact List.all_eq_true.mp (by decide)
  · exact h.path

/-! ## Targets that are read -/

theorem sound_of_readTarget {cs : List Char} {query : Option String}
    (h : readTarget cs = .ok (path, query)) (scheme authority : Option String) :
    IsSound ⟨scheme, authority, path, query⟩ := by
  unfold readTarget at h
  simp only at h
  split at h
  · cases h
  next hpath =>
    have hchars : ∀ c ∈ cs.takeWhile (fun c => c != '?' && c != '#'), isPathChar c = true := by
      simpa using hpath
    split at h
    · split at h
      · next hquery =>
          cases h
          refine ⟨by simpa using hchars, ?_⟩
          rintro q ⟨rfl⟩
          simpa using hquery
      · cases h
    · cases h
      exact ⟨by simpa using hchars, fun q hq => absurd hq (Option.not_mem_none q)⟩

theorem sound_of_map_readTarget {cs : List Char} {scheme authority : Option String}
    (h : (readTarget cs).map (fun (path, query) => Uri.mk scheme authority path query) = .ok u) :
    u.IsSound := by
  cases hread : readTarget cs with
  | error e =>
      rw [hread] at h
      cases h
  | ok r =>
      rw [hread] at h
      cases h
      exact sound_of_readTarget hread scheme authority

theorem isSound_of_parse {s : String} (h : parse s = .ok u) : u.IsSound := by
  have hchars := parseChars_of_parse h
  have hempty (authority : Option String) : IsSound ⟨none, authority, "", none⟩ :=
    ⟨fun c hc => absurd hc List.not_mem_nil, fun q hq => absurd hq (Option.not_mem_none q)⟩
  unfold parseChars at hchars
  split at hchars
  · cases hchars
  · cases hchars
    exact ⟨List.all_eq_true.mp (by decide), fun q hq => absurd hq (Option.not_mem_none q)⟩
  · cases hchars
  · cases hchars
  · exact sound_of_map_readTarget hchars
  split at hchars
  · cases hchars
  · split at hchars
    · cases hchars
    · split at hchars
      · cases hchars
        exact hempty _
      · cases hchars
  · cases hchars
  · split at hchars
    · cases hchars
    · cases hchars
    · exact sound_of_map_readTarget hchars

end Uri

namespace Request

/-- A request for a path, as it comes in or as a router hands it on: what is left of its path could
stand in a target. -/
structure Routable (r : Request) : Prop where
  sound : r.uri.IsSound
  form : r.uri.IsOriginForm ∨ r.uri.IsAbsoluteForm
  left : ∀ s ∈ r.routing.left, ∀ c ∈ s.toList, Uri.isPathChar c = true

/-- A request that has met no router yet is routable, if only it is one for a path. -/
theorem routable_of_fresh {r : Request} (hsound : r.uri.IsSound)
    (hform : r.uri.IsOriginForm ∨ r.uri.IsAbsoluteForm) (hfresh : r.attributes.routing = none) :
    r.Routable := by
  refine ⟨hsound, hform, fun s hs c hc => ?_⟩
  rw [routing, hfresh] at hs
  exact hsound.path_chars c (Path.mem_of_mem_segments hs hc)

/-- A request stays routable when it moves on along its path. -/
theorem Routable.of_suffix {r r' : Request} (h : r.Routable) (huri : r'.uri = r.uri)
    (hleft : r'.routing.left <:+ r.routing.left) : r'.Routable :=
  ⟨huri ▸ h.sound, huri ▸ h.form, fun s hs => h.left s (hleft.subset hs)⟩

theorem Routable.nested {r : Request} (h : r.Routable) {s : String} {cursor : PathCursor}
    (hshift : r.routing.shift = (some s, cursor)) (c : Context) :
    (Resource.nested r c cursor).Routable := by
  refine h.of_suffix rfl ?_
  unfold PathCursor.shift at hshift
  split at hshift
  · cases hshift
  next hleft =>
    cases hshift
    rw [hleft]
    exact List.suffix_cons _ _

end Request

end WebResource
