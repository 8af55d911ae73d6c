import WebResource.Codec.Lists

namespace WebResource

/-!
# Draining a buffer

A pull that gives a document takes a byte at least off the buffer, so a decoder is drained before
the fuel runs out: `drain` pulls until there is nothing more.
-/

namespace Json

variable {s : State} {stack : List Frame} {n : Nat} {bs rest : Bytes} {v : Json}

/-- Only a number by itself ends without a byte of its own. -/
theorem length_of_run (h : run s stack n bs = .value v rest) :
    rest.length ≤ bs.length ∧ (endsBefore s stack = false → rest.length < bs.length) := by
  induction bs generalizing s stack n with
  | nil => cases h
  | cons b bs ih =>
      rw [run] at h
      rw [List.length_cons]
      cases hstep : step s stack b with
      | more s' stack' =>
          rw [hstep] at h
          obtain ⟨hle, -⟩ := ih h
          omega
      | done w =>
          rw [hstep] at h
          cases hends : endsBefore s stack <;> simp only [hends] at h <;> cases h <;> simp
      | fault f back =>
          rw [hstep] at h
          cases h

theorem length_skipBlanks_le (bs : Bytes) : (skipBlanks bs).length ≤ bs.length :=
  (List.dropWhile_sublist _).length_le

theorem length_of_readFirst (h : readFirst bs = .ok (some (v, rest))) :
    rest.length < bs.length := by
  rw [readFirst] at h
  cases hblank : skipBlanks bs with
  | nil =>
      rw [hblank] at h
      cases h
  | cons first more =>
      have hlength := length_skipBlanks_le bs
      rw [hblank, List.length_cons] at hlength
      rw [hblank] at h
      cases hrun : run .value [] 0 bs with
      | value w after =>
          have hafter := (length_of_run hrun).2 rfl
          cases after with
          | nil =>
              simp only [hrun] at h
              cases h
              exact hafter
          | cons b after =>
              simp only [hrun] at h
              split at h <;> cases h
              exact hafter
      | ended s stack =>
          simp only [hrun] at h
          split at h <;> cases h
          rw [List.length_nil]
          omega
      | fault f n =>
          simp only [hrun] at h
          cases h

end Json

namespace ListDecoder

variable {d : ListDecoder} {eof : Bool} {phase : ArrayPhase} {src rest : Bytes} {v : Json}
  {f : ListFault}

theorem length_of_nextValue (h : nextValue eof src = (.ok (some v), rest)) :
    rest.length < src.length := by
  have hskip := Json.length_skipBlanks_le src
  rw [nextValue] at h
  cases hread : Json.readFirst (Json.skipBlanks src) with
  | error e =>
      simp only [hread] at h
      split at h <;> cases h
  | ok r =>
      cases r with
      | none =>
          simp only [hread] at h
          cases h
      | some p =>
          have hp := Json.length_of_readFirst hread
          simp only [hread] at h
          split at h <;> cases h
          omega

/-- A pull that leaves the buffer shorter if it gives a document. -/
def Shortens (src : Bytes) (p : Pull) : Prop :=
  ∀ v, p.result = .ok (some v) → p.rest.length < src.length

theorem Shortens.mono {src src' : Bytes} {p : Pull} (h : Shortens src p)
    (hle : src.length ≤ src'.length) : Shortens src' p :=
  fun v hv => Nat.lt_of_lt_of_le (h v hv) hle

theorem shortens_starved : Shortens src (starved eof phase) := by
  intro v hv
  cases eof <;> cases hv

theorem shortens_pullDone : Shortens src (pullDone src) := by
  intro v hv
  rw [pullDone] at hv
  split at hv <;> cases hv

theorem shortens_pullValue : Shortens src (pullValue eof phase src) := by
  intro v hv
  rw [pullValue] at hv ⊢
  cases hnext : nextValue eof src with
  | mk result rest =>
      rw [hnext] at hv
      cases result with
      | error e => cases hv
      | ok found =>
          cases found with
          | none => cases eof <;> cases hv
          | some w => exact length_of_nextValue hnext

theorem shortens_pullBeforeValue : Shortens src (pullBeforeValue eof src) := by
  have hskip := Json.length_skipBlanks_le src
  rw [pullBeforeValue]
  split
  · exact shortens_starved
  · exact shortens_pullValue.mono hskip

theorem shortens_pullFirst : Shortens src (pullFirst eof src) := by
  have hskip := Json.length_skipBlanks_le src
  rw [pullFirst]
  split
  · exact shortens_starved
  · next b rest hrest =>
      rw [hrest, List.length_cons] at hskip
      split
      · exact shortens_pullDone.mono (Nat.le_of_succ_le hskip)
      · exact shortens_pullValue.mono hskip

theorem shortens_pullAfterValue : Shortens src (pullAfterValue eof src) := by
  have hskip := Json.length_skipBlanks_le src
  rw [pullAfterValue]
  split
  · exact shortens_starved
  · next b rest hrest =>
      rw [hrest, List.length_cons] at hskip
      split
      · exact shortens_pullDone.mono (Nat.le_of_succ_le hskip)
      split
      · exact shortens_pullBeforeValue.mono (Nat.le_of_succ_le hskip)
      · intro v hv
        cases hv

theorem shortens_pullStart : Shortens src (pullStart eof src) := by
  have hskip := Json.length_skipBlanks_le src
  rw [pullStart]
  split
  · exact shortens_starved
  · next b rest hrest =>
      rw [hrest, List.length_cons] at hskip
      split
      · exact shortens_pullFirst.mono (Nat.le_of_succ_le hskip)
      · intro v hv
        cases hv

theorem shortens_pull (d : ListDecoder) (eof : Bool) (src : Bytes) :
    Shortens src (d.pull eof src) := by
  obtain ⟨format, phase⟩ := d
  cases format with
  | array =>
      cases phase with
      | start => exact shortens_pullStart
      | first => exact shortens_pullFirst
      | afterValue => exact shortens_pullAfterValue
      | beforeValue => exact shortens_pullBeforeValue
      | done => exact shortens_pullDone
  | lines =>
      intro v hv
      exact length_of_nextValue (Prod.ext hv rfl)

/-! ## Enough fuel -/

def moved (d : ListDecoder) (p : Pull) : ListDecoder := { d with phase := p.phase }

theorem drainFuel_eq (eof : Bool) {m n : Nat} (d : ListDecoder) (src : Bytes)
    (hm : src.length < m) (hn : src.length < n) :
    drainFuel eof m d src = drainFuel eof n d src := by
  -- Each document takes a byte at least, so both fuels outlast the documents in the buffer.
  induction m generalizing n d src with
  | zero => omega
  | succ m ih =>
      obtain ⟨n, rfl⟩ : ∃ k, n = k + 1 := ⟨n - 1, by omega⟩
      rw [drainFuel, drainFuel]
      cases hresult : (d.pull eof src).result with
      | error f => rfl
      | ok found =>
          cases found with
          | none => rfl
          | some v =>
              have hshort := shortens_pull d eof src v hresult
              simp only
              rw [ih _ _ (by omega) (by omega : _ < n)]

theorem drain_of_none (h : (d.pull eof src).result = .ok none) :
    d.drain eof src = ⟨[], none, d.moved (d.pull eof src), (d.pull eof src).rest⟩ := by
  rw [drain, drainFuel]
  simp only [h]
  rfl

theorem drain_of_error (h : (d.pull eof src).result = .error f) :
    d.drain eof src = ⟨[], some f, d.moved (d.pull eof src), (d.pull eof src).rest⟩ := by
  rw [drain, drainFuel]
  simp only [h]
  rfl

/-- A drain goes on behind a document with what the pull has left. -/
theorem drain_of_some (h : (d.pull eof src).result = .ok (some v)) :
    d.drain eof src =
      { (d.moved (d.pull eof src)).drain eof (d.pull eof src).rest with
        values := v :: ((d.moved (d.pull eof src)).drain eof (d.pull eof src).rest).values } := by
  have hshort := shortens_pull d eof src v h
  rw [drain, drainFuel]
  simp only [h]
  rw [drainFuel_eq eof _ _ hshort (Nat.lt_succ_self _)]
  rfl

end ListDecoder

end WebResource
