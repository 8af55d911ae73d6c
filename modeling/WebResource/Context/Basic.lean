import WebResource.Context.Attributes
import WebResource.Duration

namespace WebResource

/-!
# Contexts

A context carries the values of a request, the signals that cancel it and the moment at which it
expires. Every change gives a new context, so a context is never affected by those derived from it.
Whether it is done depends on the time line, which knows the present and which signals have fired.
-/

inductive ContextError where
  | canceled
  | deadlineExceeded
  deriving DecidableEq, Repr

namespace ContextError

def code : ContextError → String
  | .canceled => "canceled"
  | .deadlineExceeded => "deadline_exceeded"

def message : ContextError → String
  | .canceled => "context canceled"
  | .deadlineExceeded => "context deadline exceeded"

end ContextError

/-- Moments are nanoseconds from the start, without a bound. A signal may be known to fire in the
future. -/
structure Timeline where
  now : Nat
  firings : List (Nat × Nat)
  nextSignal : Nat
  deriving DecidableEq, Repr

namespace Timeline

def start : Timeline := ⟨0, [], 0⟩

def advance (t : Timeline) (d : Duration) : Timeline := { t with now := t.now + d.nanos }

def fireAfter (t : Timeline) (signal : Nat) (d : Duration) : Timeline :=
  { t with firings := (signal, t.now + d.nanos) :: t.firings }

def fire (t : Timeline) (signal : Nat) : Timeline := t.fireAfter signal .zero

def hasFired (t : Timeline) (signal : Nat) : Bool :=
  t.firings.any fun (s, m) => s == signal && m ≤ t.now

end Timeline

structure Context where
  values : Attributes
  signals : List Nat
  deadline : Option Nat

namespace Context

def background : Context := ⟨.empty, [], none⟩

def ofAttributes (x : Attributes) : Context := ⟨x, [], none⟩

def withValue (c : Context) (kind : String) (v : Json) : Context :=
  { c with values := c.values.insertValue kind v }

def value? (c : Context) (kind : String) : Option Json := c.values.value? kind

def withParam (c : Context) (name value : String) : Context :=
  { c with values := c.values.withParam name value }

def param? (c : Context) (name : String) : Option String := c.values.pathParams.get name

def params (c : Context) : List (String × String) := c.values.pathParams.toMap

def withQuery (c : Context) (query : List (String × String)) : Context :=
  { c with values := { c.values with query := some query } }

/-- A context with a signal of its own, which is returned too. -/
def withCancel (c : Context) (t : Timeline) : Context × Nat × Timeline :=
  ({ c with signals := t.nextSignal :: c.signals }, t.nextSignal,
    { t with nextSignal := t.nextSignal + 1 })

/-- A context that expires after a while unless it expires earlier anyway. Timeouts that end later than
the system can tell, for which there is no such context but a panic, are left out. -/
def withTimeout (c : Context) (t : Timeline) (d : Duration) : Context :=
  let m := t.now + d.nanos
  { c with deadline := some (match c.deadline with
    | some current => if current < m then current else m
    | none => m) }

def isExpired (c : Context) (t : Timeline) : Bool :=
  match c.deadline with
  | some m => m ≤ t.now
  | none => false

/-- Why the context is no longer valid, if it is not. -/
def err (c : Context) (t : Timeline) : Option ContextError :=
  if c.signals.any t.hasFired then some .canceled
  else if c.isExpired t then some .deadlineExceeded
  else none

def earliest : Option Nat → List Nat → Option Nat
  | m, [] => m
  | none, a :: as => earliest (some a) as
  | some m, a :: as => earliest (some (min m a)) as

/-- When the first of its signals will fire. -/
def firingTime (c : Context) (t : Timeline) : Option Nat :=
  earliest none ((t.firings.filter fun (s, _) => c.signals.contains s).map (·.2))

/-- When and why the context will be done, as far as is known now. -/
def doneAt (c : Context) (t : Timeline) : Option (Nat × ContextError) :=
  match c.err t with
  | some e => some (t.now, e)
  | none =>
    match c.firingTime t, c.deadline with
    | none, none => none
    | some m, none => some (m, .canceled)
    | none, some d => some (d, .deadlineExceeded)
    | some m, some d => if m ≤ d then some (m, .canceled) else some (d, .deadlineExceeded)

end Context

end WebResource
