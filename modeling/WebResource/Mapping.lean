import WebResource.Context.Basic
import WebResource.Document.Basic
import WebResource.Media
import WebResource.Prog

namespace WebResource

/-!
# Mappings

How entities become the documents on the wire and back. A mapping may refuse and may even panic. A
table holds a mapping for every media type.
-/

inductive MappingError where
  | ofDocument (reason : String)
  | toDocument (reason : String)
  deriving DecidableEq, Repr

namespace MappingError

def code : MappingError → String
  | .ofDocument _ => "from_dto"
  | .toDocument _ => "to_dto"

def message : MappingError → String
  | .ofDocument r => r
  | .toDocument r => r

end MappingError

/-- What a conversion gives: a value, a reason to refuse, or a panic. -/
inductive Mapped (α : Type) where
  | ok (a : α)
  | refused (reason : String)
  | panicked (p : Payload)

namespace Mapped

variable {α β : Type}

def bind : Mapped α → (α → Mapped β) → Mapped β
  | .ok a, f => f a
  | .refused r, _ => .refused r
  | .panicked p, _ => .panicked p

def ofExcept : Except TypeError α → Mapped α
  | .ok a => .ok a
  | .error e => .refused e.message

end Mapped

structure Mapping (E : Type) where
  toDocument : Context → E → Mapped Json
  ofDocument : Context → Json → Mapped E

namespace Mapping

variable {E D : Type}

/-- Entities that are their own documents. -/
def identity [Document E] : Mapping E where
  toDocument _ e := .ok (Document.toJson e)
  ofDocument _ j := .ofExcept (Document.ofJson j)

/-- Entities that are exchanged as documents of another type. -/
def through [Document D] (forward : Context → E → Mapped D) (backward : Context → D → Mapped E) :
    Mapping E where
  toDocument c e := (forward c e).bind fun d => .ok (Document.toJson d)
  ofDocument c j := (Mapped.ofExcept (Document.ofJson j)).bind (backward c)

end Mapping

structure Mappings (E : Type) where
  fallback : Mapping E
  overrides : List (String × Mapping E)

namespace Mappings

variable {E : Type}

def ofDefault (m : Mapping E) : Mappings E := ⟨m, []⟩

def insert (mediaType : String) (m : Mapping E) (t : Mappings E) : Mappings E :=
  let key := Media.canonical mediaType
  { t with overrides := (key, m) :: t.overrides.filter (·.1 != key) }

def get (t : Mappings E) (mediaType : String) : Mapping E :=
  match t.overrides.find? (·.1 == mediaType) with
  | some (_, m) => m
  | none => t.fallback

end Mappings

end WebResource
