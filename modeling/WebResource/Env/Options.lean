import WebResource.Env.Basic

namespace WebResource

/-!
# Options

The settings of handlers, retries and clients, and how they are read from the environment.
-/

structure ResourceOptions where
  bodyReadLimit : Nat
  deriving DecidableEq, Repr

namespace ResourceOptions

def defaults : ResourceOptions := ⟨16 * 1024 * 1024⟩

def ofEnv (env : Env) (pre : String) : Except EnvError ResourceOptions := do
  let limit ← env.optional Env.size pre "BODY_READ_LIMIT"
  return ⟨limit.getD defaults.bodyReadLimit⟩

end ResourceOptions

inductive StrategyKind where
  | exponential
  | fixed
  | jitter
  deriving DecidableEq, Repr

namespace StrategyKind

def name : StrategyKind → String
  | exponential => "Exponential"
  | fixed => "Fixed"
  | jitter => "Jitter"

def parse (raw : String) : Except EnvError StrategyKind :=
  match Media.lower raw with
  | "exponential" => .ok .exponential
  | "fixed" => .ok .fixed
  | "jitter" => .ok .jitter
  | _ => .error (.unknownStrategy raw)

end StrategyKind

/-- How a strategy paces retries: the delay is the base of the exponential one and the longest
wait of jitter, and the timeout bounds the sum of all waits. -/
structure RetryOptions where
  strategy : StrategyKind
  delay : Duration
  maxRetries : Nat
  timeout : Option Duration
  deriving DecidableEq, Repr

namespace RetryOptions

def defaults : RetryOptions := ⟨.exponential, .ofMillis 100, 3, none⟩

def ofEnv (env : Env) (pre : String) : Except EnvError RetryOptions := do
  let strategy ←
    match ← env.optional Env.text pre "STRATEGY" with
    | some raw => StrategyKind.parse raw
    | none => pure defaults.strategy
  let delay ← env.optional Env.duration pre "DELAY"
  let maxRetries ← env.optional Env.size pre "MAX_RETRIES"
  let timeout ← env.optional Env.duration pre "TIMEOUT"
  return ⟨strategy, delay.getD defaults.delay, maxRetries.getD defaults.maxRetries, timeout⟩

end RetryOptions

structure ClientOptions where
  baseUrl : String
  mediaType : String
  disableStreaming : Bool
  deriving DecidableEq, Repr

namespace ClientOptions

def ofEnv (env : Env) (pre : String) : Except EnvError ClientOptions := do
  let baseUrl ← env.required Env.text pre "BASE_URL"
  let mediaType ← env.optional Env.text pre "MEDIA_TYPE"
  let disable ← env.optional Env.bool pre "DISABLE_STREAMING"
  return ⟨baseUrl, mediaType.getD Media.json, disable.getD false⟩

end ClientOptions

end WebResource
