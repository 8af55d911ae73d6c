import WebResource.Context.Clock
import WebResource.Message.Basic

namespace WebResource

/-!
# Bodies of responses as they arrive

A body arrives chunk by chunk. A chunk may be a failure, or may never come. A body that watches a
context ends with an error of the context as soon as the context is done.
-/

inductive TransportError where
  | connectionClosed (reason : String)
  | context (e : ContextError)
  | invalidRequest (reason : String)
  | other (reason : String)
  | timedOut (reason : String)
  deriving DecidableEq, Repr

namespace TransportError

def code : TransportError → String
  | .connectionClosed _ => "closed"
  | .context e => e.code
  | .invalidRequest _ => "invalid"
  | .other _ => "other"
  | .timedOut _ => "timeout"

def ofCode (code reason : String) : Option TransportError :=
  [.connectionClosed reason, .context .canceled, .context .deadlineExceeded, .invalidRequest reason,
    .other reason, .timedOut reason].find? (·.code == code)

def message : TransportError → String
  | .connectionClosed r => s!"Connection closed: {r}"
  | .context e => e.message
  | .invalidRequest r => s!"Invalid request: {r}"
  | .other r => r
  | .timedOut r => s!"Timed out: {r}"

/-- The same request may succeed when it is repeated. -/
def isTransient : TransportError → Bool
  | .connectionClosed _ => true
  | .timedOut _ => true
  | _ => false

end TransportError

inductive Chunk where
  | data (frame : Frame)
  | failure (e : TransportError)
  | never
  deriving DecidableEq, Repr

/-- A body whose rest has not arrived yet. What backs it is released with the last chunk, or when
the body is dropped before. -/
structure Body (S : Type) where
  chunks : List Chunk
  release : S → S
  watch : Option Context

namespace Body

variable {S : Type}

def ofChunks (chunks : List Chunk) : Body S := ⟨chunks, id, none⟩

def ofBytes (bs : Bytes) : Body S := .ofChunks [.data ⟨bs, []⟩]

def ofFrames (frames : List Frame) (release : S → S) : Body S := ⟨frames.map .data, release, none⟩

def cancellable (c : Context) (b : Body S) : Body S := { b with watch := some c }

def drop (b : Body S) : Act (Timed S) Unit := Timed.modifyInner b.release

/-- What comes of waiting for a chunk. -/
inductive Arrival where
  | data (bs : Bytes)
  | failed (e : TransportError)
  | interrupted (e : ContextError)

/-- Why no more of the body may be read, if so. -/
def interruption (watch : Option Context) : Act (Timed S) (Option ContextError) := do
  let w ← Act.get
  return watch.bind fun c => c.err w.time

def stuck {α : Type} : Act (Timed S) α := .panic (.text "The body never ends")

def arrive (watch : Option Context) : Chunk → Act (Timed S) Arrival
  | .data frame => frame.logs.foldr .log (.done (.data frame.data))
  | .failure e => .done (.failed e)
  | .never =>
    match watch with
    | none => stuck
    | some c => do
      match ← Act.step (Timed.untilDone c) with
      | some e => return .interrupted e
      | none => stuck

/-- Waits for a chunk. An end of the context comes first. -/
def await (watch : Option Context) (chunk : Chunk) : Act (Timed S) Arrival := do
  match ← interruption watch with
  | some e => return .interrupted e
  | none => arrive watch chunk

/-- The body after a chunk, whose backing is released if the chunk was the last one. -/
def advance (b : Body S) : List Chunk → Act (Timed S) (Body S)
  | [] => do
    b.drop
    return { b with chunks := [], release := id }
  | chunks => return { b with chunks }

/-- Reads what is left of a body up to its end or its first failure. -/
def collect (watch : Option Context) (read : Bytes) :
    List Chunk → Act (Timed S) (Except TransportError Bytes)
  | [] => do
    match ← interruption watch with
    | some e => return .error (.context e)
    | none => return .ok read
  | chunk :: chunks => do
    match ← await watch chunk with
    | .data bs => collect watch (read ++ bs) chunks
    | .failed e => return .error e
    | .interrupted e => return .error (.context e)

def bytes (b : Body S) : Act (Timed S) (Except TransportError Bytes) := do
  let r ← collect b.watch [] b.chunks
  b.drop
  return r

/-- All that arrives. A failure is no end, but an end of the context is. -/
def arrivals (watch : Option Context) : List Chunk → Act (Timed S) (List (Except TransportError Bytes))
  | [] => do
    match ← interruption watch with
    | some e => return [.error (.context e)]
    | none => return []
  | chunk :: chunks => do
    match ← await watch chunk with
    | .data bs => return .ok bs :: (← arrivals watch chunks)
    | .failed e => return .error e :: (← arrivals watch chunks)
    | .interrupted e => return [.error (.context e)]

end Body

end WebResource
