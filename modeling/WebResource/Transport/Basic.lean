import WebResource.Router.Handler
import WebResource.Transport.Body

namespace WebResource

/-!
# Transports

A transport carries a request to a server and brings back the response, whose body is still to
arrive. The body of a request is held as a whole, so that it can be sent again.
-/

structure TransportRequest where
  method : String
  uri : Uri
  headers : Headers
  body : Bytes

structure TransportResponse (S : Type) where
  status : Nat
  headers : Headers
  body : Body S

inductive HttpVersion where
  | http09
  | http10
  | http11
  | http2
  | http3
  deriving DecidableEq, Repr

/-- A request with all that a caller may have put into it. Clients make requests of version 1.1
that carry no values. -/
structure HttpRequest extends TransportRequest where
  version : HttpVersion
  attributes : Attributes

/-- What a round trip gives over the state `S`. -/
abbrev Delivery (S : Type) := Except TransportError (TransportResponse S)

abbrev Transport (S : Type) := Context → TransportRequest → Act (Timed S) (Delivery S)

/-- A transport to which the version and the values of a request matter. -/
abbrev RoundTripper (S : Type) := Context → HttpRequest → Act (Timed S) (Delivery S)

namespace TransportRequest

/-- The request as a handler gets it. -/
def toRequest (r : TransportRequest) : Request :=
  ⟨r.method, r.uri, r.headers, [.ok r.body], .empty⟩

end TransportRequest

namespace HttpRequest

def ofTransport (r : TransportRequest) : HttpRequest := ⟨r, .http11, .empty⟩

/-- A copy to be sent again, which does not carry the values. -/
def replay (r : HttpRequest) : HttpRequest :=
  ⟨⟨r.method, r.uri, r.headers, r.body⟩, r.version, .empty⟩

end HttpRequest

namespace Delivery

variable {S : Type}

def discard : Delivery S → Act (Timed S) Unit
  | .ok response => response.body.drop
  | .error _ => .done ()

end Delivery

namespace Transport

variable {S : Type}

/-- Serves requests by a handler in place. Nothing is sent under a context that is done. -/
def ofHandler (h : Handler S) (t : Routes S) : Transport S := fun c request => do
  let w ← Act.get
  match c.err w.time with
  | some e => return .error (.context e)
  | none =>
    let r ← Timed.lift (h.call t request.toRequest)
    return .ok ⟨r.status, r.headers, .ofFrames r.frames r.release⟩

/-- A transport over a part of the state. -/
def zoom {T : Type} (view : T → S) (put : S → T → T) (send : Transport S) : Transport T := fun c request =>
  let inner (w : Timed T) : Timed S := ⟨w.time, w.sleeps, view w.inner⟩
  let outer (v : Timed S) (w : Timed T) : Timed T := ⟨v.time, v.sleeps, put v.inner w.inner⟩
  ((send c request).zoom inner outer).bind fun
    | .error e => .done (.error e)
    | .ok r =>
      let release (t : T) : T := put (r.body.release (view t)) t
      .done (.ok { r with body := ⟨r.body.chunks, release, r.body.watch⟩ })

end Transport

end WebResource
