import WebResource.Client.Basic
import WebResource.Proofs.Codec.Lists

namespace WebResource

/-!
# What happens while a list arrives

A list that arrives is a sequence of events: a frame of the body comes, or a result is given. Which
events they are follows from the frames, from how the body ends and from the mapping of documents to
entities, whoever asks for the results.
-/

namespace ListDecoder

variable {d : ListDecoder} {buffer : Bytes}

/-- A drain and the one after it, unless the first one ends with a fault. -/
def Drained.append (x y : Drained) : Drained :=
  match x.fault with
  | some _ => x
  | none => { y with values := x.values ++ y.values }

/-- What a decoder gives for chunks: it is drained after each of them, unless there is a fault before,
and once more behind the last one if they are the whole text. -/
def receive (whole : Bool) (d : ListDecoder) (buffer : Bytes) : (chunks : List Bytes) → Drained
  | [] => if whole then d.drain true buffer else ⟨[], none, d, buffer⟩
  | chunk :: chunks =>
    let x := d.drain false (buffer ++ chunk)
    x.append (receive whole x.decoder x.rest chunks)

theorem Drained.append_of_values {x : Drained} (h : x.fault = none) (hvalues : x.values = [])
    (y : Drained) : x.append y = y := by
  rw [append, h, hvalues]
  rfl

/-- Before its first chunk a decoder has nothing to give. -/
theorem drain_start (format : ListFormat) :
    (start format).drain false [] = ⟨[], none, start format, []⟩ := by
  cases format <;> rfl

end ListDecoder

open ListDecoder (Drained receive)

variable {E : Type}

/-- A frame of the body comes, or a result is given. -/
inductive Event (E : Type) where
  | arrived (frame : Frame)
  | gave (r : Except ClientError E)

namespace Event

def result? : Event E → Option (Except ClientError E)
  | arrived _ => none
  | gave r => some r

/-- What is logged with an event. -/
def logs : Event E → List LogRecord
  | arrived frame => frame.logs
  | gave _ => []

/-- The results that are given. -/
def given (es : List (Event E)) : List (Except ClientError E) := es.filterMap result?

/-- The events up to a number of results: all if there are fewer. -/
def upTo : Nat → List (Event E) → List (Event E)
  | 0, _ => []
  | _ + 1, [] => []
  | n + 1, arrived frame :: es => arrived frame :: upTo (n + 1) es
  | n + 1, gave r :: es => gave r :: upTo n es

theorem given_arrived (frames : List Frame) (es : List (Event E)) :
    given (frames.map arrived ++ es) = given es := by
  induction frames with
  | nil => rfl
  | cons frame frames ih => exact ih

theorem upTo_arrived (n : Nat) (frames : List Frame) (es : List (Event E)) :
    upTo (n + 1) (frames.map arrived ++ es) = frames.map arrived ++ upTo (n + 1) es := by
  induction frames with
  | nil => rfl
  | cons frame frames ih => exact congrArg (arrived frame :: ·) ih

theorem flatMap_logs_arrived (frames : List Frame) (es : List (Event E)) :
    (frames.map arrived ++ es).flatMap logs = frames.flatMap Frame.logs ++ es.flatMap logs := by
  induction frames with
  | nil => rfl
  | cons frame frames ih =>
      rw [List.map_cons, List.cons_append, List.flatMap_cons, List.flatMap_cons, ih, List.append_assoc]
      rfl

/-- The frames are read in their order and each once, all of them unless there is an error. Nothing
comes behind an error, neither a frame nor a result. -/
inductive Reads : List Frame → List (Event E) → Prop where
  | ended : Reads [] []
  | failed (frames : List Frame) (x : ClientError) : Reads frames [gave (.error x)]
  | arrived {frames : List Frame} {es : List (Event E)} (frame : Frame) (h : Reads frames es) :
      Reads (frame :: frames) (arrived frame :: es)
  | gave {frames : List Frame} {es : List (Event E)} (e : E) (h : Reads frames es) :
      Reads frames (gave (.ok e) :: es)

/-! ## Documents -/

variable (convert : Json → Mapped E)

/-- What is given for documents: their entities, up to the first one that cannot be mapped. -/
def told : List Json → List (Event E) → List (Event E)
  | [], later => later
  | v :: vs, later =>
    match convert v with
    | .ok e => gave (.ok e) :: told vs later
    | .refused why => [gave (.error (.mapping (.ofDocument why)))]
    | .panicked _ => []

/-- What is given for all that a decoder has found, and what is given later. -/
def drained (x : Drained) (later : List (Event E)) : List (Event E) :=
  told convert x.values
    (match x.fault with
    | some f => [gave (.error (.codec (.decode f.message)))]
    | none => later)

/-- What is given for the end of a body, if it is not the end of the list. -/
def broken (ending : Option TransportError) : List (Event E) :=
  (ending.map fun e => gave (.error (.ofTransport e))).toList

/-- What is given once all frames have come, for what the decoder has left then. -/
def finished (ending : Option TransportError) (d : ListDecoder) (buffer : Bytes) : List (Event E) :=
  match ending with
  | some _ => broken ending
  | none => drained convert (d.drain true buffer) []

/-- The events of a list that arrives frame by frame. The documents in the buffer are given before the
next frame is waited for. -/
def ofFrames (ending : Option TransportError) (d : ListDecoder) (buffer : Bytes) :
    List Frame → List (Event E)
  | [] =>
    let x := d.drain false buffer
    drained convert x (finished convert ending x.decoder x.rest)
  | frame :: frames =>
    let x := d.drain false buffer
    drained convert x (arrived frame :: ofFrames ending x.decoder (x.rest ++ frame.data) frames)

/-- The events behind a drain: the next frame comes, or what is left then. -/
def afterDrain (ending : Option TransportError) (x : Drained) : List Frame → List (Event E)
  | [] => finished convert ending x.decoder x.rest
  | frame :: frames =>
    arrived frame :: ofFrames convert ending x.decoder (x.rest ++ frame.data) frames

theorem ofFrames_eq (ending : Option TransportError) (d : ListDecoder) (buffer : Bytes)
    (frames : List Frame) : ofFrames convert ending d buffer frames =
      drained convert (d.drain false buffer) (afterDrain convert ending (d.drain false buffer) frames) := by
  cases frames <;> rfl

variable {convert} {later later' : List (Event E)}

theorem told_append (vs ws : List Json) (later : List (Event E)) :
    told convert (vs ++ ws) later = told convert vs (told convert ws later) := by
  induction vs with
  | nil => rfl
  | cons v vs ih =>
      rw [List.cons_append, told, told, ih]

theorem drained_append (x y : Drained) (later : List (Event E)) :
    drained convert (x.append y) later = drained convert x (drained convert y later) := by
  cases hfault : x.fault with
  | some f => simp only [drained, Drained.append, hfault]
  | none => simp only [drained, Drained.append, hfault, told_append]

theorem drained_cons (v : Json) (x : Drained) (later : List (Event E)) :
    drained convert { x with values := v :: x.values } later =
      match convert v with
      | .ok e => gave (.ok e) :: drained convert x later
      | .refused why => [gave (.error (.mapping (.ofDocument why)))]
      | .panicked _ => [] := rfl

theorem given_told (vs : List Json) (h : given later = given later') :
    given (told convert vs later) = given (told convert vs later') := by
  induction vs with
  | nil => exact h
  | cons v vs ih =>
      rw [told, told]
      split
      · exact congrArg (_ :: ·) ih
      · rfl
      · rfl

theorem given_drained (x : Drained) (h : given later = given later') :
    given (drained convert x later) = given (drained convert x later') := by
  apply given_told
  split
  · rfl
  · exact h

/-- The results are those for all that the decoder finds in the frames, however they interleave. -/
theorem given_ofFrames (ending : Option TransportError) (d : ListDecoder) (buffer : Bytes)
    (frames : List Frame) :
    given (ofFrames convert ending d buffer frames) =
      given (drained convert ((d.drain false buffer).append (receive ending.isNone
        (d.drain false buffer).decoder (d.drain false buffer).rest (frames.map Frame.data)))
          (broken ending)) := by
  induction frames generalizing d buffer with
  | nil =>
      rw [ofFrames, drained_append]
      apply given_drained
      cases ending <;> rfl
  | cons frame frames ih =>
      rw [ofFrames, drained_append]
      apply given_drained
      exact ih _ _

theorem given_ofFrames_start (ending : Option TransportError) (format : ListFormat)
    (frames : List Frame) :
    given (ofFrames convert ending (.start format) [] frames) =
      given (drained convert (receive ending.isNone (.start format) [] (frames.map Frame.data))
        (broken ending)) := by
  rw [given_ofFrames, ListDecoder.drain_start, Drained.append_of_values rfl rfl]

/-! ## Frames -/

variable {frames : List Frame} (hconvert : ∀ v p, convert v ≠ .panicked p)

include hconvert

theorem reads_told (vs : List Json) (h : Reads frames later) : Reads frames (told convert vs later) := by
  induction vs with
  | nil => exact h
  | cons v vs ih =>
      rw [told]
      split
      · exact .gave _ ih
      · exact .failed frames _
      · next p hp => exact absurd hp (hconvert v p)

theorem reads_drained (x : Drained) (h : Reads frames later) :
    Reads frames (drained convert x later) := by
  apply reads_told hconvert
  split
  · exact .failed frames _
  · exact h

theorem reads_ofFrames (ending : Option TransportError) (d : ListDecoder) (buffer : Bytes)
    (frames : List Frame) : Reads frames (ofFrames convert ending d buffer frames) := by
  induction frames generalizing d buffer with
  | nil =>
      apply reads_drained hconvert
      cases ending with
      | some e => exact .failed [] _
      | none => exact reads_drained hconvert _ .ended
  | cons frame frames ih => exact reads_drained hconvert _ (.arrived frame (ih _ _))

end Event

end WebResource
