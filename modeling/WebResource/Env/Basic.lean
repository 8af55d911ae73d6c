import WebResource.Duration
import WebResource.Env.Url
import WebResource.Media
import WebResource.Text.Integer

namespace WebResource

/-!
# Environment variables

Settings are variables named by a prefix and a suffix, whose texts are read as values of some type.
-/

/-- Why a text is no value of a type. -/
inductive ValueError where
  | bool (raw : String)
  | integer (type : String) (e : NumberError)
  | duration (raw : String) (e : NumberError)
  | durationUnit (raw unit : String)
  | durationRange (raw : String)
  | url (e : UrlError)
  deriving DecidableEq, Repr

namespace ValueError

def message : ValueError → String
  | .bool raw => s!"Invalid bool: {raw}"
  | .integer type e => s!"Invalid {type}: {e.message}"
  | .duration raw e => s!"Invalid Duration: {raw}: {e.message}"
  | .durationUnit raw unit => s!"Invalid Duration: {raw}: unknown unit '{unit}'"
  | .durationRange raw => s!"Invalid Duration: {raw}: out of range"
  | .url e => s!"Invalid Url: {e.message}"

end ValueError

inductive EnvError where
  | notUnicode (name : String)
  | invalid (name : String) (e : ValueError)
  | missing (name : String)
  | unknownStrategy (name : String)
  deriving DecidableEq, Repr

namespace EnvError

def message : EnvError → String
  | .notUnicode n => s!"Invalid value in environment variable {n}"
  | .invalid n e => s!"Invalid type in environment variable {n}: {e.message}"
  | .missing n => s!"Required environment variable {n} not present"
  | .unknownStrategy n => s!"Unknown retry strategy '{n}'"

end EnvError

/-- The environment: variables and their bytes. -/
abbrev Env := List (String × Bytes)

namespace Env

/-- How a text is read as a value. -/
abbrev Reader (α : Type) := String → Except ValueError α

def text : Reader String := .ok

def bool : Reader Bool := fun raw =>
  let s := Media.lower raw
  if ["1", "true", "yes", "on"].contains s then .ok true
  else if ["0", "false", "no", "off"].contains s then .ok false
  else .error (.bool raw)

def integer (r : IntRange) (type : String) : Reader Int := fun raw =>
  (r.read raw).mapError (.integer type)

def size : Reader Nat := fun raw => (integer .u64 "usize" raw).map Int.toNat

/-- A number of milliseconds, seconds, minutes or hours; a number alone counts seconds. -/
def duration : Reader Duration := fun raw =>
  let cs := Text.trimChars raw.toList
  let number := cs.takeWhile Char.isDigit
  let unit := String.ofList (cs.drop number.length)
  match IntRange.u64.readChars number with
  | .error e => .error (.duration raw e)
  | .ok n =>
    let n := n.toNat
    let seconds (k : Nat) : Except ValueError Duration :=
      if n * k < Nat.pow 2 64 then .ok (.ofSeconds (n * k)) else .error (.durationRange raw)
    if unit = "ms" then .ok (.ofMillis n)
    else if unit = "" ∨ unit = "s" then seconds 1
    else if unit = "m" then seconds 60
    else if unit = "h" then seconds 3600
    else .error (.durationUnit raw unit)

def url : Reader String := fun raw => (Url.parse raw).mapError .url

variable {α : Type}

def name (pre suffix : String) : String := pre ++ "_" ++ suffix

def optional (env : Env) (reader : Reader α) (pre suffix : String) :
    Except EnvError (Option α) :=
  let name := name pre suffix
  match env.find? (·.1 == name) with
  | none => .ok none
  | some (_, bytes) =>
    match Utf8.decode? bytes with
    | none => .error (.notUnicode name)
    | some raw =>
      match reader raw with
      | .ok a => .ok (some a)
      | .error e => .error (.invalid name e)

def required (env : Env) (reader : Reader α) (pre suffix : String) : Except EnvError α :=
  match env.optional reader pre suffix with
  | .error e => .error e
  | .ok (some a) => .ok a
  | .ok none => .error (.missing (name pre suffix))

end Env

end WebResource
