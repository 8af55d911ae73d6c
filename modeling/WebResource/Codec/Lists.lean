import WebResource.Json.Printer
import WebResource.Json.Reader

namespace WebResource

/-!
# Lists, one document at a time

An encoder appends the documents of a list to an output as they come. A decoder takes documents
off the front of a buffer that grows: it leaves a document that is not complete yet where it is,
and is asked in a second way once no more bytes will come.
-/

inductive CodecError where
  | decode (reason : String)
  | encode (reason : String)
  deriving DecidableEq, Repr

namespace CodecError

def code : CodecError → String
  | .decode _ => "decode"
  | .encode _ => "encode"

def message : CodecError → String
  | .decode r => s!"Cannot decode: {r}"
  | .encode r => s!"Cannot encode: {r}"

end CodecError

/-- A list as a JSON array, or as one document per line. -/
inductive ListFormat where
  | array
  | lines
  deriving DecidableEq, Repr

/-! ## Writing -/

structure ListEncoder where
  format : ListFormat
  started : Bool
  closed : Bool
  deriving DecidableEq, Repr

namespace ListEncoder

def start (format : ListFormat) : ListEncoder := ⟨format, false, false⟩

/-- The bytes to append for one more document. -/
def encode (e : ListEncoder) (v : Json) : Except CodecError (Bytes × ListEncoder) :=
  match e.format with
  | .lines => .ok (v.render ++ [0x0A], e)
  | .array =>
    if e.closed then .error (.encode "List already closed")
    else .ok ((if e.started then 0x2C else 0x5B) :: v.render, { e with started := true })

/-- The bytes to append at the end; nothing if the list has been closed before. -/
def close (e : ListEncoder) : Bytes × ListEncoder :=
  match e.format with
  | .lines => ([], e)
  | .array =>
    if e.closed then ([], e)
    else ((if e.started then [0x5D] else [0x5B, 0x5D]), { e with started := true, closed := true })

end ListEncoder

/-! ## Reading -/

inductive ListFault where
  | json (e : Json.ReadError)
  | notArray (b : UInt8)
  | notSeparator (b : UInt8)
  | afterArray (b : UInt8)
  | unexpectedEnd
  deriving DecidableEq, Repr

namespace ListFault

def byteText (b : UInt8) : String := String.ofList [Char.ofNat b.toNat]

def message : ListFault → String
  | .json e => e.message
  | .notArray b => s!"Expected JSON array but found '{byteText b}'"
  | .notSeparator b => s!"Expected ',' or ']' but found '{byteText b}'"
  | .afterArray b => s!"Unexpected '{byteText b}' after JSON array"
  | .unexpectedEnd => "Unexpected end of JSON array"

end ListFault

/-- Where a decoder is in an array. -/
inductive ArrayPhase where
  | start
  | first
  | afterValue
  | beforeValue
  | done
  deriving DecidableEq, Repr

/-- What a call to a decoder gives: a document, nothing yet or at all, or a fault; where the decoder
is then, and what it has left in the buffer. -/
structure Pull where
  result : Except ListFault (Option Json)
  phase : ArrayPhase
  rest : Bytes

namespace ListDecoder

/-- Takes the first document off a buffer. A number that reaches to the end of the buffer may still
go on unless no more bytes will come. -/
def nextValue (eof : Bool) (src : Bytes) : Except ListFault (Option Json) × Bytes :=
  let src := Json.skipBlanks src
  match Json.readFirst src with
  | .ok none => (.ok none, src)
  | .ok (some (v, rest)) =>
    if rest.isEmpty && !eof && v.isNumber then (.ok none, src) else (.ok (some v), rest)
  | .error e => if e.fault.isEnd && !eof then (.ok none, src) else (.error (.json e), src)

/-- The answer where the buffer is used up inside an array. -/
def starved (eof : Bool) (phase : ArrayPhase) : Pull :=
  ⟨if eof then .error .unexpectedEnd else .ok none, phase, []⟩

def pullDone (src : Bytes) : Pull :=
  match Json.skipBlanks src with
  | [] => ⟨.ok none, .done, []⟩
  | b :: rest => ⟨.error (.afterArray b), .done, b :: rest⟩

def pullValue (eof : Bool) (phase : ArrayPhase) (src : Bytes) : Pull :=
  match nextValue eof src with
  | (.ok (some v), rest) => ⟨.ok (some v), .afterValue, rest⟩
  | (.ok none, rest) => ⟨if eof then .error .unexpectedEnd else .ok none, phase, rest⟩
  | (.error e, rest) => ⟨.error e, phase, rest⟩

def pullBeforeValue (eof : Bool) (src : Bytes) : Pull :=
  match Json.skipBlanks src with
  | [] => starved eof .beforeValue
  | src => pullValue eof .beforeValue src

def pullFirst (eof : Bool) (src : Bytes) : Pull :=
  match Json.skipBlanks src with
  | [] => starved eof .first
  | b :: rest => if b = 0x5D then pullDone rest else pullValue eof .first (b :: rest)

def pullAfterValue (eof : Bool) (src : Bytes) : Pull :=
  match Json.skipBlanks src with
  | [] => starved eof .afterValue
  | b :: rest =>
    if b = 0x5D then pullDone rest
    else if b = 0x2C then pullBeforeValue eof rest
    else ⟨.error (.notSeparator b), .afterValue, b :: rest⟩

def pullStart (eof : Bool) (src : Bytes) : Pull :=
  match Json.skipBlanks src with
  | [] => starved eof .start
  | b :: rest =>
    if b = 0x5B then pullFirst eof rest else ⟨.error (.notArray b), .start, b :: rest⟩

def pullArray (eof : Bool) : ArrayPhase → Bytes → Pull
  | .start => pullStart eof
  | .first => pullFirst eof
  | .afterValue => pullAfterValue eof
  | .beforeValue => pullBeforeValue eof
  | .done => pullDone

end ListDecoder

structure ListDecoder where
  format : ListFormat
  phase : ArrayPhase
  deriving DecidableEq, Repr

namespace ListDecoder

def start (format : ListFormat) : ListDecoder := ⟨format, .start⟩

def pull (d : ListDecoder) (eof : Bool) (src : Bytes) : Pull :=
  match d.format with
  | .array => pullArray eof d.phase src
  | .lines => let (r, rest) := nextValue eof src; ⟨r, d.phase, rest⟩

def decode (d : ListDecoder) (src : Bytes) : Pull := d.pull false src

/-- Takes the next document off a buffer to which nothing will be added. -/
def decodeEof (d : ListDecoder) (src : Bytes) : Pull := d.pull true src

/-- All that repeated pulls give: the documents, the fault that ended them if one did, and the
decoder and the buffer at the end. -/
structure Drained where
  values : List Json
  fault : Option ListFault
  decoder : ListDecoder
  rest : Bytes

/-- Pulls until there is no document, at most `fuel` times. -/
def drainFuel (eof : Bool) : (fuel : Nat) → ListDecoder → Bytes → Drained
  | 0, d, src => ⟨[], none, d, src⟩
  | fuel + 1, d, src =>
    let p := d.pull eof src
    let d := { d with phase := p.phase }
    match p.result with
    | .error f => ⟨[], some f, d, p.rest⟩
    | .ok none => ⟨[], none, d, p.rest⟩
    | .ok (some v) =>
      let r := drainFuel eof fuel d p.rest
      { r with values := v :: r.values }

/-- Pulls until there is no document. Each one takes a byte at least off the buffer. -/
def drain (d : ListDecoder) (eof : Bool) (src : Bytes) : Drained :=
  drainFuel eof (src.length + 1) d src

end ListDecoder

def decodeList (format : ListFormat) (bs : Bytes) : Except CodecError (List Json) :=
  let r := (ListDecoder.start format).drain true bs
  match r.fault with
  | some f => .error (.decode f.message)
  | none => .ok r.values

end WebResource
