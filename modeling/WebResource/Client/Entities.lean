import WebResource.Client.Operations

namespace WebResource

/-!
# Streams of entities

What a client gives for a list: entities that are fetched when they are asked for. A stream ends
after its first error.
-/

/-- A list whose body is still arriving. -/
structure ListReader (S E : Type) where
  body : Body S
  decoder : ListDecoder
  buffer : Bytes
  mapping : Mapping E
  context : Context
  /-- The body has arrived in full. -/
  eof : Bool

/-- A stream of entities: a list that has not been asked for yet, one that is arriving, one that has
arrived, or entities to look up one after the other. -/
inductive Entities (S E I : Type) where
  | list (c : Context)
  | arriving (reader : ListReader S E)
  | arrived (es : List E)
  | lookups (c : Context) (ids : List I)
  | ended

/-- The next entity or the error of a stream, and the stream after it. -/
inductive Next (S E I : Type) where
  | ended
  | item (r : Except ClientError E) (rest : Entities S E I)

variable {S E I : Type}

namespace ListReader

def fail (b : Body S) (e : ClientError) : Act (Timed S) (Next S E I) := do
  b.drop
  return .item (.error e) .ended

/-- Goes on with what a decoder has found: an entity, an error, or nothing yet. -/
def found (r : ListReader S E) (b : Body S) (p : Pull) (eof : Bool)
    (more : Act (Timed S) (Next S E I)) : Act (Timed S) (Next S E I) :=
  match p.result with
  | .error f => fail b (.codec (.decode f.message))
  | .ok none => more
  | .ok (some document) =>
    match r.mapping.ofDocument r.context document with
    | .panicked p => .panic p
    | .refused why => fail b (.mapping (.ofDocument why))
    | .ok e =>
      .done (.item (.ok e) (.arriving { r with
        body := b
        decoder := { r.decoder with phase := p.phase }
        buffer := p.rest
        eof }))

/-- The next entity once the body has arrived. -/
def finish (r : ListReader S E) (b : Body S) (d : ListDecoder) (buffer : Bytes) :
    Act (Timed S) (Next S E I) :=
  r.found b (d.decodeEof buffer) true do
    b.drop
    return .ended

/-- The next entity while chunks may still arrive. -/
def advance (r : ListReader S E) (b : Body S) (d : ListDecoder) (buffer : Bytes) :
    List Chunk → Act (Timed S) (Next S E I)
  | [] =>
    let p := d.decode buffer
    r.found { b with chunks := [] } p false do
      match ← Body.interruption b.watch with
      | some e => fail b (.context e)
      | none => r.finish { b with chunks := [] } { d with phase := p.phase } p.rest
  | chunk :: chunks =>
    let p := d.decode buffer
    r.found { b with chunks := chunk :: chunks } p false do
      match ← Body.await b.watch chunk with
      | .interrupted e => fail b (.context e)
      | .failed e => fail b (.ofTransport e)
      | .data bs =>
        let b ← b.advance chunks
        advance r b { d with phase := p.phase } (p.rest ++ bs) chunks

def next (r : ListReader S E) : Act (Timed S) (Next S E I) :=
  if r.eof then r.finish r.body r.decoder r.buffer
  else r.advance r.body r.decoder r.buffer r.body.chunks

end ListReader

namespace Client

def convertAll (m : Mapping E) (c : Context) : List Json → Calling S (List E)
  | [] => pure []
  | document :: documents => do
    let e ← Calling.mapped .ofDocument (m.ofDocument c document)
    return e :: (← convertAll m c documents)

/-- Asks for a list and prepares to read it. -/
def requestList (k : Client S E I) (c : Context) : Calling S (Entities S E I) := do
  let url ← Calling.ofExcept id (k.collectionUrl c)
  let r ← k.send c "GET" url []
  if !Status.isSuccess r.status then unexpected url r
  else
    let n := k.responseCodec r.headers
    match n.codec.streaming with
    | none =>
      discard r
      throw (.notStreamable n.mediaType)
    | some format =>
      let m := k.mappings.get n.mediaType
      let body := r.body.cancellable c
      if k.disableStreaming then
        let data ← Calling.ofExcept .ofTransport (← Calling.lift body.bytes)
        let documents ← Calling.ofExcept .codec (decodeList format data)
        return .arrived (← convertAll m c documents)
      else return .arriving ⟨body, .start format, [], m, c, false⟩

/-- All entities. Nothing is sent before the first is asked for. -/
def findAll (k : Client S E I) (c : Context) : Entities S E I := .list (k.contextHook c)

/-- The entities of some identifiers, looked up one at a time. -/
def findByIds (_ : Client S E I) (c : Context) (ids : List I) : Entities S E I := .lookups c ids

end Client

namespace Entities

/-- The next entity of a stream that needs no request to be sent first. -/
def nextArrived : Entities S E I → Act (Timed S) (Next S E I)
  | .arriving reader => reader.next
  | .arrived (e :: es) => .done (.item (.ok e) (.arrived es))
  | _ => .done .ended

def next (k : Client S E I) : Entities S E I → Act (Timed S) (Next S E I)
  | .list c => do
    match ← (k.requestList c).run with
    | .error e => return .item (.error e) .ended
    | .ok es => es.nextArrived
  | .lookups c (i :: ids) => do
    match ← (k.findById c i).run with
    | .error e => return .item (.error e) .ended
    | .ok none => return .item (.error (.notFound ((k.ids.format i).toOption.getD ""))) .ended
    | .ok (some e) => return .item (.ok e) (.lookups c ids)
  | es => es.nextArrived

def drop : Entities S E I → Act (Timed S) Unit
  | .arriving reader => reader.body.drop
  | _ => .done ()

/-- At most so many entities, and what is left of the stream. -/
def take (k : Client S E I) :
    Nat → Entities S E I → Act (Timed S) (List (Except ClientError E) × Entities S E I)
  | 0, es => .done ([], es)
  | n + 1, es => do
    match ← es.next k with
    | .ended => return ([], .ended)
    | .item r rest =>
      let (rs, rest) ← take k n rest
      return (r :: rs, rest)

end Entities

end WebResource
