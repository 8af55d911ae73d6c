import WebResource.Proofs.Message.Uri
import WebResource.Proofs.Path
import WebResource.Proofs.Text.Percent

namespace WebResource.Client

/-!
# Paths of entities

The URL of an entity is that of the collection with the escaped identifier as one more segment. Its
path has that segment behind the path of the collection, unless a clean path has no such segment, or
the URL of the collection has a query or a fragment that swallows it.
-/

/-- A URL of a collection and an identifier for which the URL of the entity has the path of the
collection and the identifier behind it. -/
def Addressable (base i : String) : Prop :=
  (∀ c ∈ base.toList, Uri.IsPathPart c) ∧ i ≠ "" ∧ i ≠ "." ∧ i ≠ ".."

theorem isPathPart_dropEnd_iff (base : String) :
    (∀ c ∈ (Text.dropEnd '/' base).toList, Uri.IsPathPart c) ↔ ∀ c ∈ base.toList, Uri.IsPathPart c := by
  have hiff (cs : List Char) : (∀ c ∈ cs, Uri.IsPathPart c) ↔ '?' ∉ cs ∧ '#' ∉ cs := by
    constructor
    · exact fun h => ⟨fun hc => (h _ hc).1 rfl, fun hc => (h _ hc).2 rfl⟩
    · rintro ⟨hquery, hfragment⟩ c hc
      exact ⟨fun h => hquery (h ▸ hc), fun h => hfragment (h ▸ hc)⟩
  rw [hiff, hiff, Text.mem_dropEnd_iff (by decide), Text.mem_dropEnd_iff (by decide)]

theorem isSegmentPart_of_mem {i : String} {c : Char} (h : c ∈ (Percent.encodeSegment i).toList) :
    Uri.IsSegmentPart c := by
  refine ⟨?_, ?_, ?_⟩ <;> rintro rfl <;>
    exact Percent.not_mem_encodeSegment (by decide) h

theorem isPlain_encodeSegment {i : String} (hempty : i ≠ "") (hdot : i ≠ ".") (hparent : i ≠ "..") :
    Path.IsPlain (Percent.encodeSegment i).toList := by
  have hne {t : String} (ht : Percent.encodeSegment t = t) (hi : i ≠ t) :
      (Percent.encodeSegment i).toList ≠ t.toList := fun h =>
    hi ((Percent.encodeSegment_eq_iff ht).mp (String.toList_inj.mp h))
  exact ⟨hne (t := "") rfl hempty, hne (t := ".") rfl hdot, hne (t := "..") rfl hparent⟩

section Target

variable {base i : String} {u v : Uri}
  (hu : Uri.parse (Text.dropEnd '/' base ++ "/" ++ Percent.encodeSegment i) = .ok u)
  (hv : Uri.parse (Text.dropEnd '/' base ++ "/") = .ok v)

include hu hv

theorem exists_path (hbase : ∀ c ∈ base.toList, Uri.IsPathPart c) :
    ∃ p, v.path = String.ofList (p ++ ['/']) ∧
      u.path = String.ofList (p ++ '/' :: (Percent.encodeSegment i).toList) := by
  obtain ⟨w, p, hw, hwp, hup⟩ := Uri.parse_slash_segment (Text.getLast?_dropEnd '/' base)
    ((isPathPart_dropEnd_iff base).mpr hbase) (fun c hc => isSegmentPart_of_mem hc) hu
  rw [hv] at hw
  cases hw
  refine ⟨p, hwp, ?_⟩
  rw [hup, Uri.path, if_neg]
  intro hempty
  have := congrArg String.toList hempty
  simp at this

theorem segments_of_addressable (h : Addressable base i) :
    Path.segments u.path = Path.segments v.path ++ [Percent.encodeSegment i] := by
  obtain ⟨hbase, hempty, hdot, hparent⟩ := h
  obtain ⟨p, hvp, hup⟩ := exists_path hu hv hbase
  have hslash : '/' ∉ (Percent.encodeSegment i).toList := Percent.not_mem_encodeSegment (by decide)
  rw [hvp, hup, Path.segments_append_plain hslash (isPlain_encodeSegment hempty hdot hparent),
    String.ofList_toList]

/-- The path of an entity that is not addressable is the path of the collection or the path above
it. -/
theorem segments_of_not_addressable (h : ¬Addressable base i) :
    Path.segments u.path = Path.segments v.path ∨
      Path.segments u.path = (Path.segments v.path).dropLast := by
  by_cases hbase : ∀ c ∈ base.toList, Uri.IsPathPart c
  · obtain ⟨p, hvp, hup⟩ := exists_path hu hv hbase
    rw [hvp, hup]
    by_cases hempty : i = ""
    · exact Or.inl (hempty ▸ Path.segments_append_skipped (Or.inl rfl) p)
    by_cases hdot : i = "."
    · exact Or.inl (hdot ▸ Path.segments_append_skipped (Or.inr rfl) p)
    by_cases hparent : i = ".."
    · exact Or.inr (hparent ▸ Path.segments_append_parent p)
    exact absurd ⟨hbase, hempty, hdot, hparent⟩ h
  · refine Or.inl ?_
    rw [String.append_assoc] at hu
    rw [Uri.path_eq_of_parse (fun hdrop => hbase ((isPathPart_dropEnd_iff base).mp hdrop)) hu hv]

end Target

end WebResource.Client
