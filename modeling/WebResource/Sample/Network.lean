import WebResource.Sample.Kind
import WebResource.Transport.Basic

namespace WebResource.Sample

/-!
# A network to look at

A transport that writes down what is sent through it, and a server that answers from a script.
-/

structure Network where
  shelf : Shelf
  requests : List TransportRequest
  served : Nat
  /-- The signal that an outcome may fire. -/
  signal : Nat

/-- What a scripted server does with a request. -/
structure Outcome where
  delivery : Except TransportError (Nat × Headers × List Chunk)
  /-- Cancels the context of the request once it has been served. -/
  cancels : Bool

namespace Network

def start (shelf : Shelf) : Network := ⟨shelf, [], 0, 0⟩

def recording (send : Transport Network) : Transport Network := fun c request =>
  (Timed.modifyInner fun n => { n with requests := n.requests ++ [request] }).bind fun _ => send c request

def ofShelf (send : Transport Shelf) : Transport Network :=
  send.zoom (·.shelf) fun s n => { n with shelf := s }

/-- The outcome at a place of a script, whose last one stays for ever. -/
def outcome (script : List Outcome) (place : Nat) : Outcome :=
  (script[place]? <|> script.getLast?).getD ⟨.error (.other "The script is empty"), false⟩

def deliver : Except TransportError (Nat × Headers × List Chunk) → Delivery Network
  | .error e => .error e
  | .ok (status, headers, chunks) => .ok ⟨status, headers, .ofChunks chunks⟩

def scripted (script : List Outcome) : Transport Network := fun _ _ =>
  Act.step fun w =>
    let o := outcome script w.inner.served
    let w := { w with inner := { w.inner with served := w.inner.served + 1 } }
    (deliver o.delivery, if o.cancels then w.setTime (·.fire w.inner.signal) else w)

end Network

end WebResource.Sample
