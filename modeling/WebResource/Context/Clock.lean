import WebResource.Context.Basic
import WebResource.Prog

namespace WebResource

/-!
# Waiting

Waits happen on a clock: the system clock, which lets time pass, or a clock that only writes down
how long it has been asked to wait. A wait under a context ends early, with the reason, when the
context is done.
-/

inductive Clock where
  | system
  | recording
  deriving DecidableEq, Repr

/-- A state with a time line, and the waits that the recording clock has written down. -/
structure Timed (S : Type) where
  time : Timeline
  sleeps : List Duration
  inner : S

namespace Timed

variable {S : Type}

def start (s : S) : Timed S := ⟨.start, [], s⟩

/-- Timers go off at whole milliseconds. -/
def wakeAt (t : Timeline) (d : Duration) : Nat :=
  (t.now + d.nanos + (Duration.perMilli - 1)) / Duration.perMilli * Duration.perMilli

def passTo (m : Nat) (t : Timeline) : Timeline := { t with now := max t.now m }

def setTime (f : Timeline → Timeline) (w : Timed S) : Timed S := { w with time := f w.time }

def record (d : Duration) (w : Timed S) : Timed S := { w with sleeps := w.sleeps ++ [d] }

/-- Waits for a while, or until the context is done. -/
def sleepOrCancel (clock : Clock) (c : Context) (d : Duration) (w : Timed S) :
    Except ContextError Unit × Timed S :=
  match c.err w.time with
  | some e => (.error e, w)
  | none =>
    match clock with
    | .recording => (.ok (), w.record d)
    | .system =>
      let wake := wakeAt w.time d
      match c.doneAt w.time with
      | some (m, e) =>
        if m ≤ wake then (.error e, w.setTime (passTo m)) else (.ok (), w.setTime (passTo wake))
      | none => (.ok (), w.setTime (passTo wake))

/-- Waits until the context is done, at most for a while. -/
def awaitDone (c : Context) (limit : Duration) (w : Timed S) : Option ContextError × Timed S :=
  let wake := wakeAt w.time limit
  match c.doneAt w.time with
  | some (m, e) =>
    if m ≤ wake then (some e, w.setTime (passTo m)) else (none, w.setTime (passTo wake))
  | none => (none, w.setTime (passTo wake))

/-- Waits until the context is done, if it ever will be. -/
def untilDone (c : Context) (w : Timed S) : Option ContextError × Timed S :=
  match c.doneAt w.time with
  | some (m, e) => (some e, w.setTime (passTo m))
  | none => (none, w)

/-- A program over the inner state. -/
def lift {α : Type} (x : Act S α) : Act (Timed S) α :=
  Act.zoom (fun w => w.inner) (fun s w => { w with inner := s }) x

def modifyInner (f : S → S) : Act (Timed S) Unit := Act.modify fun w => { w with inner := f w.inner }

end Timed

end WebResource
