import WebResource.Env.Options
import WebResource.Transport.Basic

namespace WebResource

/-!
# Retries

A request that fails transiently is sent again after a wait. The number of retries is bounded, and
so is the sum of the waits if there is a timeout: a retry whose wait would exceed it is not made.
-/

/-- Options with a clock to wait on, and the waits that jitter chooses. -/
structure RetryStrategy where
  options : RetryOptions
  clock : Clock
  choice : Nat → Duration

namespace RetryStrategy

/-- The factor of the `n`-th wait, which doubles until it no longer fits 32 bits. -/
def factor (n : Nat) : Nat := if n - 1 < 32 then Nat.pow 2 (n - 1) else 4294967295

/-- The longest wait that the strategy makes before the `n`-th retry. -/
def longest (s : RetryStrategy) (n : Nat) : Duration :=
  match s.options.strategy with
  | .exponential => s.options.delay.times (factor n)
  | .fixed => s.options.delay
  | .jitter => s.options.delay

def wait (s : RetryStrategy) (n : Nat) : Duration :=
  match s.options.strategy with
  | .jitter => ⟨min (s.choice n).nanos s.options.delay.nanos⟩
  | _ => s.longest n

/-- The sum of the longest waits before the first `n` retries. -/
def projected (s : RetryStrategy) (n : Nat) : Duration :=
  n.fold (fun i _ total => total.add (s.longest (i + 1))) .zero

def allows (s : RetryStrategy) (failures : Nat) : Bool :=
  failures ≤ s.options.maxRetries &&
    match s.options.timeout with
    | none => true
    | some limit => (s.projected failures).nanos ≤ limit.nanos

/-- Waits for the retry after so many failures if there is to be one. -/
def waitForRetry {S : Type} (s : RetryStrategy) (c : Context) (failures : Nat) :
    Act (Timed S) (Except ContextError Bool) :=
  if s.allows failures then do
    match ← Act.step (Timed.sleepOrCancel s.clock c (s.wait failures)) with
    | .ok () => return .ok true
    | .error e => return .error e
  else .done (.ok false)

end RetryStrategy

/-- A strategy, and for which statuses it is to be used or not used against the default. -/
structure Retrying where
  strategy : RetryStrategy
  overrides : List (Nat × Bool)

namespace Retrying

variable {S : Type}

/-- The statuses after which a request is sent again by default. -/
def transientStatuses : List Nat := [408, 429, 500, 502, 503, 504, 507]

/-- The last override for a status counts. -/
def isTransient (r : Retrying) (status : Nat) : Bool :=
  match r.overrides.reverse.find? (·.1 == status) with
  | some (_, retry) => retry
  | none => transientStatuses.contains status

/-- Why a request is to be sent again, if it is. -/
def cause (r : Retrying) : Delivery S → Option String
  | .ok response =>
    if r.isTransient response.status then some s!"status {Status.text response.status}" else none
  | .error e => if e.isTransient then some e.message else none

def givingUp (request : HttpRequest) (attempts : Nat) (cause : String) : LogRecord :=
  .warn s!"Giving up on {request.method} {request.uri.render} after {attempts} attempts: {cause}"

def trying (request : HttpRequest) (cause : String) : LogRecord :=
  .debug s!"Retrying {request.method} {request.uri.render} after {cause}"

/-- Attempts after so many failures, with a budget of so many retries. -/
def attempt (r : Retrying) (send : RoundTripper S) (c : Context) (request : HttpRequest) :
    (budget failures : Nat) → Act (Timed S) (Delivery S)
  | budget, failures => do
    let w ← Act.get
    match c.err w.time with
    | some e => return .error (.context e)
    | none =>
      let delivery ← send c request.replay
      match r.cause delivery with
      | none => return delivery
      | some cause =>
        match ← r.strategy.waitForRetry c (failures + 1) with
        | .error e =>
          delivery.discard
          return .error (.context e)
        | .ok retry =>
          match budget with
          | budget + 1 =>
            if retry then
              Prog.tell (trying request cause)
              delivery.discard
              attempt r send c request budget (failures + 1)
            else
              Prog.tell (givingUp request (failures + 1) cause)
              return delivery
          | 0 =>
            Prog.tell (givingUp request (failures + 1) cause)
            return delivery

def roundTrip (r : Retrying) (send : RoundTripper S) : RoundTripper S := fun c request =>
  r.attempt send c request r.strategy.options.maxRetries 0

def transport (r : Retrying) (send : Transport S) : Transport S := fun c request =>
  r.roundTrip (fun c q => send c q.toTransportRequest) c (.ofTransport request)

end Retrying

end WebResource
