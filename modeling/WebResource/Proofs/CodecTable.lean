import Mathlib.Data.List.Induction
import WebResource.Negotiation
import WebResource.Proofs.Media
import WebResource.Sample.Codecs

namespace WebResource.CodecTable

/-!
# Codecs under their media types

A codec is found under every spelling of the media type that it was registered for. A registration for
a media type that has a codec is reported, but it has put the new codec in the place of the old one by
then, so the last registration is the one that counts.
-/

open Media (canonical)

variable {r : CodecTable} {calls : List (String × Codec)} {key mediaType other : String} {c : Codec}

/-! ## One registration -/

/-- Codecs are kept under canonical media types. -/
def Keyed (r : CodecTable) : Prop := ∀ entry ∈ r, canonical entry.1 = entry.1

theorem find_cons (entry : String × Codec) (r : CodecTable) (key : String) :
    find (entry :: r) key = if entry.1 = key then some entry.2 else r.find key := by
  by_cases h : entry.1 = key <;> simp [find, h]

theorem fst_put (key : String) (c : Codec) (r : CodecTable) :
    (put key c r).1 = (r.find key).isSome := by
  induction r with
  | nil => rfl
  | cons entry r ih =>
      rw [put, find_cons]
      split
      · rfl
      · exact ih

theorem find_put (key other : String) (c : Codec) (r : CodecTable) :
    (put key c r).2.find other = if key = other then some c else r.find other := by
  induction r with
  | nil => exact find_cons (key, c) [] other
  | cons entry r ih =>
      rw [put]
      split
      · next h =>
          rw [find_cons, find_cons, h]
          split <;> rfl
      · next h =>
          rw [find_cons, find_cons, ih]
          split
          · next hother => rw [if_neg fun hkey => h (hother.trans hkey.symm)]
          · rfl

theorem Keyed.put (h : r.Keyed) (hkey : canonical key = key) : (put key c r).2.Keyed := by
  induction r with
  | nil =>
      rintro entry hentry
      obtain rfl := List.mem_singleton.mp hentry
      exact hkey
  | cons entry r ih =>
      obtain ⟨hentry, hrest⟩ := List.forall_mem_cons.mp h
      rw [CodecTable.put]
      split
      · exact List.forall_mem_cons.mpr ⟨hentry, hrest⟩
      · exact List.forall_mem_cons.mpr ⟨hentry, ih hrest⟩

/-- A media type is looked up under its canonical form, whichever spelling is asked for first. -/
theorem Keyed.get_eq (h : r.Keyed) (mediaType : String) :
    r.get mediaType = r.find (canonical mediaType) := by
  rw [get]
  cases hfind : r.find mediaType with
  | none => rfl
  | some c =>
      obtain ⟨entry, hentry, -⟩ := Option.map_eq_some_iff.mp hfind
      have hkey : entry.1 = mediaType := by simpa using List.find?_some hentry
      have hcanonical := h entry (List.mem_of_find?_eq_some hentry)
      rw [hkey] at hcanonical
      rw [hcanonical, hfind]

theorem Keyed.register (h : r.Keyed) (mediaType : String) (c : Codec) :
    (register mediaType c r).2.Keyed :=
  h.put (Media.canonical_canonical mediaType)

/-- What is registered is found from then on, whether or not it is reported. -/
theorem Keyed.get_register (h : r.Keyed) (mediaType other : String) (c : Codec) :
    (CodecTable.register mediaType c r).2.get other =
      if canonical mediaType = canonical other then some c else r.get other := by
  rw [(h.register mediaType c).get_eq, h.get_eq]
  exact find_put (canonical mediaType) (canonical other) c r

/-- A registration is reported exactly if its media type has a codec. -/
theorem Keyed.register_eq_some_iff (h : r.Keyed) {d : Duplicate} :
    (CodecTable.register mediaType c r).1 = some d ↔
      d = ⟨canonical mediaType⟩ ∧ (r.get mediaType).isSome := by
  change (if (CodecTable.put (canonical mediaType) c r).1 then some _ else none) = some d ↔ _
  rw [fst_put, h.get_eq]
  cases (r.find (canonical mediaType)).isSome <;> simp [eq_comm]

/-! ## Registrations in order -/

/-- The table after registrations in order; those that are reported do not keep the next ones from being
made. -/
def registered (calls : List (String × Codec)) : CodecTable :=
  calls.foldl (fun r call => (register call.1 call.2 r).2) []

/-- The codec of the first registration for a media type. -/
def firstFor (calls : List (String × Codec)) (mediaType : String) : Option Codec :=
  (calls.find? fun call => canonical call.1 == canonical mediaType).map (·.2)

def lastFor (calls : List (String × Codec)) (mediaType : String) : Option Codec :=
  firstFor calls.reverse mediaType

/-- No media type is registered for two codecs. -/
def Uncontested (calls : List (String × Codec)) : Prop :=
  ∀ a ∈ calls, ∀ b ∈ calls, canonical a.1 = canonical b.1 → a.2 = b.2

theorem firstFor_congr (h : canonical mediaType = canonical other) (calls : List (String × Codec)) :
    firstFor calls mediaType = firstFor calls other := by
  rw [firstFor, h, firstFor]

theorem firstFor_cons (call : String × Codec) (calls : List (String × Codec)) (mediaType : String) :
    firstFor (call :: calls) mediaType =
      if canonical call.1 = canonical mediaType then some call.2 else firstFor calls mediaType := by
  by_cases h : canonical call.1 = canonical mediaType <;> simp [firstFor, h]

theorem firstFor_append (before after : List (String × Codec)) (mediaType : String) :
    firstFor (before ++ after) mediaType =
      (firstFor before mediaType).or (firstFor after mediaType) := by
  rw [firstFor, List.find?_append, Option.map_or]
  rfl

theorem firstFor_eq_none_iff :
    firstFor calls mediaType = none ↔ ∀ call ∈ calls, canonical call.1 ≠ canonical mediaType := by
  simp [firstFor]

theorem exists_of_firstFor (h : firstFor calls mediaType = some c) :
    ∃ call ∈ calls, canonical call.1 = canonical mediaType ∧ call.2 = c := by
  obtain ⟨call, hfind, rfl⟩ := Option.map_eq_some_iff.mp h
  exact ⟨call, List.mem_of_find?_eq_some hfind, by simpa using List.find?_some hfind, rfl⟩

theorem lastFor_concat (calls : List (String × Codec)) (call : String × Codec) (mediaType : String) :
    lastFor (calls ++ [call]) mediaType =
      if canonical call.1 = canonical mediaType then some call.2 else lastFor calls mediaType := by
  rw [lastFor, List.reverse_append, List.reverse_singleton, List.singleton_append, firstFor_cons, lastFor]

theorem isSome_lastFor_iff :
    (lastFor calls mediaType).isSome ↔ ∃ call ∈ calls, canonical call.1 = canonical mediaType := by
  rw [← Option.ne_none_iff_isSome, Ne, lastFor, firstFor_eq_none_iff]
  simp

theorem registered_concat (calls : List (String × Codec)) (call : String × Codec) :
    registered (calls ++ [call]) = (register call.1 call.2 (registered calls)).2 := by
  rw [registered, List.foldl_append, registered, List.foldl_cons, List.foldl_nil]

theorem keyed_registered (calls : List (String × Codec)) : (registered calls).Keyed := by
  induction calls using List.reverseRecOn with
  | nil => exact fun entry hentry => absurd hentry List.not_mem_nil
  | append_singleton calls call ih =>
      rw [registered_concat]
      exact ih.register call.1 call.2

theorem get_registered (calls : List (String × Codec)) (mediaType : String) :
    (registered calls).get mediaType = lastFor calls mediaType := by
  induction calls using List.reverseRecOn with
  | nil => simp [registered, get, find, lastFor, firstFor]
  | append_singleton calls call ih =>
      rw [registered_concat, (keyed_registered calls).get_register, lastFor_concat, ih]

/-! ## The first registration and the last -/

/-- Where no media type is registered for two codecs, it does not matter which registration counts. -/
theorem Uncontested.firstFor_eq_lastFor (h : Uncontested calls) (mediaType : String) :
    firstFor calls mediaType = lastFor calls mediaType := by
  cases hfirst : firstFor calls mediaType with
  | none =>
      rw [firstFor_eq_none_iff] at hfirst
      rw [lastFor, eq_comm, firstFor_eq_none_iff]
      exact fun call hcall => hfirst call (List.mem_reverse.mp hcall)
  | some c =>
      obtain ⟨a, ha, hmedia, rfl⟩ := exists_of_firstFor hfirst
      obtain ⟨c, hlast⟩ := Option.isSome_iff_exists.mp (isSome_lastFor_iff.mpr ⟨a, ha, hmedia⟩)
      obtain ⟨b, hb, hmedia', rfl⟩ := exists_of_firstFor hlast
      rw [hlast, h a ha b (List.mem_reverse.mp hb) (hmedia.trans hmedia'.symm)]

/-- A registration that counts when it is made, as the first one, is the first one of all. -/
theorem firstFor_of_mem (h : ∀ before, before <+: calls → ∀ mediaType,
      (registered before).get mediaType = firstFor before mediaType) {call : String × Codec}
    (hcall : call ∈ calls) : firstFor calls call.1 = some call.2 := by
  obtain ⟨before, after, rfl⟩ := List.append_of_mem hcall
  have hsplit : before ++ call :: after = (before ++ [call]) ++ after := by simp
  have hfirst := h (before ++ [call]) ⟨after, hsplit.symm⟩ call.1
  rw [get_registered, lastFor_concat, if_pos rfl] at hfirst
  rw [hsplit, firstFor_append, ← hfirst]
  rfl

theorem first_counts_iff_uncontested : (∀ before, before <+: calls → ∀ mediaType,
      (registered before).get mediaType = firstFor before mediaType) ↔ Uncontested calls := by
  constructor
  · intro h a ha b hb hmedia
    have hsame := firstFor_congr hmedia calls
    rw [firstFor_of_mem h ha, firstFor_of_mem h hb] at hsame
    exact Option.some.inj hsame
  · rintro h before ⟨after, rfl⟩ mediaType
    have hbefore : Uncontested before := fun a ha b hb =>
      h a (List.mem_append_left after ha) b (List.mem_append_left after hb)
    rw [get_registered, hbefore.firstFor_eq_lastFor]

/-- After registrations in order, a further one is reported exactly if one of them was for its media
type, in any spelling, and what is found for a media type is the codec of the last registration for it.
So the first registrations are the ones that count, at any time, exactly if no media type is registered
for two codecs; and a further one leaves all that is found as it was exactly if it is for the codec that
is there. -/
theorem registrations_count (calls : List (String × Codec)) :
    (∀ mediaType c d, (register mediaType c (registered calls)).1 = some d ↔
      d = ⟨canonical mediaType⟩ ∧ ∃ call ∈ calls, canonical call.1 = canonical mediaType) ∧
    (∀ mediaType, (registered calls).get mediaType = lastFor calls mediaType) ∧
    ((∀ before, before <+: calls → ∀ mediaType,
      (registered before).get mediaType = firstFor before mediaType) ↔ Uncontested calls) ∧
    ∀ mediaType c,
      (∀ other, (register mediaType c (registered calls)).2.get other = (registered calls).get other) ↔
        (registered calls).get mediaType = some c := by
  have hkeyed := keyed_registered calls
  refine ⟨fun mediaType c d => ?_, get_registered calls, first_counts_iff_uncontested,
    fun mediaType c => ?_⟩
  · rw [hkeyed.register_eq_some_iff, get_registered, isSome_lastFor_iff]
  · constructor
    · intro h
      rw [← h mediaType, hkeyed.get_register, if_pos rfl]
    · intro h other
      rw [hkeyed.get_register]
      split
      · next hsame => rw [hkeyed.get_eq, ← hsame, ← hkeyed.get_eq, h]
      · rfl

/-- The second spelling of a media type is reported, and its codec is the one that is found. -/
theorem registrations_count_respelt :
    let first := ("text/x", Sample.Codecs.constant "a")
    let second := ("Text/X; q=1", Sample.Codecs.constant "b")
    (register second.1 second.2 (registered [first])).1 = some ⟨"text/x"⟩ ∧
      (registered [first, second]).get "text/x" = some second.2 ∧ ¬Uncontested [first, second] := by
  intro first second
  have hsame : canonical first.1 = canonical second.1 := by decide +kernel
  have hne : first.2 ≠ second.2 := fun h => by
    have hbytes := congrArg (fun c : Codec => (c.marshal .null).toOption) h
    exact absurd hbytes (by decide +kernel)
  obtain ⟨hreport, -⟩ := registrations_count [first]
  obtain ⟨-, hlast, -⟩ := registrations_count [first, second]
  refine ⟨(hreport _ _ _).mpr ⟨by decide +kernel, first, List.mem_cons_self, hsame⟩, ?_, ?_⟩
  · rw [hlast, ← List.singleton_append, lastFor_concat, if_pos (by decide +kernel)]
  · exact fun h => hne (h first List.mem_cons_self second (by simp) hsame)

end WebResource.CodecTable
