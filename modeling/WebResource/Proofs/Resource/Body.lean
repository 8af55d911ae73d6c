import Mathlib.Data.List.Basic
import WebResource.Resource.Body

namespace WebResource.Resource

/-!
# Bodies that are read

What comes of a body follows from the bytes that arrive before one of its chunks fails, however they
are cut into chunks: they may be too many, or not all that was sent; else they are what is read.
-/

variable {limit : Nat} {body read : Bytes} {request : Request} {chunks : List (Except String Bytes)}

/-- The bytes in front of the first chunk that fails. -/
def arrived : List (Except String Bytes) → Bytes
  | [] => []
  | .error _ :: _ => []
  | .ok chunk :: chunks => chunk ++ arrived chunks

/-- Why a chunk fails, if one does. -/
def failure? : List (Except String Bytes) → Option String
  | [] => none
  | .error why :: _ => some why
  | .ok _ :: chunks => failure? chunks

/-- What reading all chunks gives where nothing is too large. -/
def gathered (chunks : List (Except String Bytes)) : Except ApiError Bytes :=
  match failure? chunks with
  | some why => .error ⟨.invalidRequestBody, s!"Cannot read body: {why}"⟩
  | none => .ok (arrived chunks)

/-- More bytes than the limit have been declared, or have arrived. -/
def Exceeds (limit : Nat) (request : Request) : Prop :=
  (∃ n, declaredLength request.headers = some n ∧ limit < n) ∨ limit < (arrived request.chunks).length

theorem failure?_eq_none_iff :
    failure? chunks = none ↔ ∃ pieces : List Bytes, chunks = pieces.map .ok := by
  induction chunks with
  | nil => exact iff_of_true rfl ⟨[], rfl⟩
  | cons chunk chunks ih =>
      cases chunk with
      | error why =>
          refine iff_of_false nofun ?_
          rintro ⟨_ | ⟨piece, pieces⟩, hpieces⟩
          · cases hpieces
          · cases List.head_eq_of_cons_eq hpieces
      | ok chunk =>
          rw [failure?, ih]
          constructor
          · rintro ⟨pieces, rfl⟩
            exact ⟨chunk :: pieces, rfl⟩
          · rintro ⟨_ | ⟨piece, pieces⟩, hpieces⟩
            · cases hpieces
            · exact ⟨pieces, (List.cons.inj hpieces).2⟩

theorem arrived_map_ok (pieces : List Bytes) : arrived (pieces.map .ok) = pieces.flatten := by
  induction pieces with
  | nil => rfl
  | cons piece pieces ih => rw [List.map_cons, arrived, ih, List.flatten_cons]

theorem gathered_cons_ok (chunk : Bytes) (chunks : List (Except String Bytes)) :
    gathered (.ok chunk :: chunks) = (gathered chunks).map (chunk ++ ·) := by
  rw [gathered, gathered, failure?]
  cases failure? chunks <;> rfl

theorem gathered_eq_ok_iff : gathered chunks = .ok body ↔
    ∃ pieces : List Bytes, chunks = pieces.map .ok ∧ body = pieces.flatten := by
  rw [gathered]
  constructor
  · intro h
    cases hfailure : failure? chunks with
    | some why => simp [hfailure] at h
    | none =>
        obtain ⟨pieces, rfl⟩ := failure?_eq_none_iff.mp hfailure
        rw [hfailure] at h
        exact ⟨pieces, rfl, (Except.ok.inj h).symm.trans (arrived_map_ok pieces)⟩
  · rintro ⟨pieces, rfl, rfl⟩
    rw [failure?_eq_none_iff.mpr ⟨pieces, rfl⟩, arrived_map_ok]

/-- What has been read so far counts like what comes. -/
theorem readChunks_eq (hread : read.length ≤ limit) : readChunks limit read chunks =
    if limit < read.length + (arrived chunks).length then .error (tooLarge limit)
    else (gathered chunks).map (read ++ ·) := by
  induction chunks generalizing read with
  | nil =>
      rw [readChunks, arrived, List.length_nil, Nat.add_zero, if_neg (Nat.not_lt.mpr hread)]
      exact congrArg Except.ok (List.append_nil read).symm
  | cons chunk chunks ih =>
      cases chunk with
      | error why =>
          rw [readChunks, arrived, List.length_nil, Nat.add_zero, if_neg (Nat.not_lt.mpr hread)]
          rfl
      | ok chunk =>
          rw [readChunks, arrived, List.length_append, ← Nat.add_assoc]
          split
          · next hlong => rw [if_pos (Nat.lt_add_right _ hlong)]
          · next hshort =>
              have hmore : (read ++ chunk).length ≤ limit := by
                rw [List.length_append]
                exact Nat.le_of_not_lt hshort
              rw [ih hmore, List.length_append, gathered_cons_ok]
              cases gathered chunks with
              | error e => rfl
              | ok body => simp only [Except.map, List.append_assoc]

theorem exceeds_iff_of_declared (h : (declaredLength request.headers).any (limit < ·) = false) :
    Exceeds limit request ↔ limit < (arrived request.chunks).length := by
  refine or_iff_right ?_
  rintro ⟨n, hn, hlong⟩
  rw [hn, Option.any_some, decide_eq_false_iff_not] at h
  exact h hlong

theorem readBody_of_exceeds (h : Exceeds limit request) :
    readBody limit request = .error (tooLarge limit) := by
  rw [readBody]
  split
  · rfl
  · next hshort =>
      have hlong := (exceeds_iff_of_declared (Bool.eq_false_iff.mpr hshort)).mp h
      rw [readChunks_eq (Nat.zero_le limit), List.length_nil, Nat.zero_add, if_pos hlong]

theorem readBody_of_not_exceeds (h : ¬Exceeds limit request) :
    readBody limit request = gathered request.chunks := by
  have hshort : (declaredLength request.headers).any (limit < ·) = false := by
    cases hn : declaredLength request.headers with
    | none => rfl
    | some n => exact decide_eq_false fun hlong => h (Or.inl ⟨n, hn, hlong⟩)
  have hlength := mt (exceeds_iff_of_declared hshort).mpr h
  rw [readBody, hshort, if_neg Bool.false_ne_true, readChunks_eq (Nat.zero_le limit), List.length_nil,
    Nat.zero_add, if_neg hlength]
  cases gathered request.chunks <;> rfl

theorem readBody_of_failure {why : String} (hwhy : failure? request.chunks = some why)
    (hsmall : ¬Exceeds limit request) :
    readBody limit request = .error ⟨.invalidRequestBody, s!"Cannot read body: {why}"⟩ := by
  rw [readBody_of_not_exceeds hsmall, gathered, hwhy]

theorem readBody_of_pieces {pieces : List Bytes} (hchunks : request.chunks = pieces.map .ok)
    (hsmall : ¬Exceeds limit request) : readBody limit request = .ok pieces.flatten := by
  rw [readBody_of_not_exceeds hsmall, gathered_eq_ok_iff]
  exact ⟨pieces, hchunks, rfl⟩

/-- How a body is cut does not matter. -/
theorem readBody_congr {request' : Request} (hheaders : request'.headers = request.headers)
    (harrived : arrived request'.chunks = arrived request.chunks)
    (hfailure : failure? request'.chunks = failure? request.chunks) :
    readBody limit request' = readBody limit request := by
  have hexceeds : Exceeds limit request' ↔ Exceeds limit request := by
    rw [Exceeds, hheaders, harrived, Exceeds]
  by_cases hlarge : Exceeds limit request
  · rw [readBody_of_exceeds hlarge, readBody_of_exceeds (hexceeds.mpr hlarge)]
  · rw [readBody_of_not_exceeds hlarge, readBody_of_not_exceeds (mt hexceeds.mp hlarge), gathered,
      gathered, harrived, hfailure]

theorem readBody_eq_ok_iff :
    readBody limit request = .ok body ↔
      (∀ n, declaredLength request.headers = some n → n ≤ limit) ∧
        ∃ pieces : List Bytes, request.chunks = pieces.map .ok ∧ body = pieces.flatten ∧
          body.length ≤ limit := by
  by_cases hlarge : Exceeds limit request
  · rw [readBody_of_exceeds hlarge]
    refine iff_of_false nofun ?_
    rintro ⟨hdeclared, pieces, hchunks, rfl, hlength⟩
    rcases hlarge with ⟨n, hn, hlong⟩ | hlong
    · exact Nat.not_lt.mpr (hdeclared n hn) hlong
    · rw [hchunks, arrived_map_ok] at hlong
      exact Nat.not_lt.mpr hlength hlong
  · obtain ⟨hdeclared, hlength⟩ := not_or.mp hlarge
    rw [readBody_of_not_exceeds hlarge, gathered_eq_ok_iff,
      and_iff_right fun n hn => Nat.not_lt.mp fun hlong => hdeclared ⟨n, hn, hlong⟩]
    refine exists_congr fun pieces => and_congr_right fun hchunks => ?_
    rw [hchunks, arrived_map_ok] at hlength
    exact ⟨fun hbody => ⟨hbody, hbody ▸ Nat.not_lt.mp hlength⟩, And.left⟩

theorem readDocument_eq_ok_iff {n : MediaCodec} {document : Json} :
    readDocument limit request n = .ok document ↔
      ∃ body, readBody limit request = .ok body ∧ n.codec.unmarshal body = .ok document := by
  rw [readDocument]
  cases hbody : readBody limit request with
  | error e => exact iff_of_false nofun (by simp)
  | ok body =>
      cases hdocument : n.codec.unmarshal body <;> simp [hdocument]

end WebResource.Resource
