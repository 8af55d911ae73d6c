import WebResource.Json.Basic
import WebResource.Text.Hex

namespace WebResource

/-!
# Reading JSON

A machine that reads one byte at a time: the containers that are open are on a stack and the state
says what may come next. So a text that ends early leaves the machine in the state from which it
would go on, and cutting a text never changes what the machine does.
-/

namespace Json

/-- Why a text is no JSON text. -/
inductive Fault where
  | endInValue
  | endInList
  | endInObject
  | endInString
  | expectedValue
  | expectedIdent
  | expectedColon
  | expectedListCommaOrEnd
  | expectedObjectCommaOrEnd
  | keyNotString
  | trailingComma
  | trailingCharacters
  | invalidNumber
  | numberOutOfRange
  | invalidEscape
  | controlCharacter
  | invalidCodePoint
  | loneSurrogate
  | endOfHexEscape
  | tooDeep
  deriving DecidableEq, Repr

namespace Fault

def message : Fault → String
  | .endInValue => "EOF while parsing a value"
  | .endInList => "EOF while parsing a list"
  | .endInObject => "EOF while parsing an object"
  | .endInString => "EOF while parsing a string"
  | .expectedValue => "expected value"
  | .expectedIdent => "expected ident"
  | .expectedColon => "expected `:`"
  | .expectedListCommaOrEnd => "expected `,` or `]`"
  | .expectedObjectCommaOrEnd => "expected `,` or `\x7d`"
  | .keyNotString => "key must be a string"
  | .trailingComma => "trailing comma"
  | .trailingCharacters => "trailing characters"
  | .invalidNumber => "invalid number"
  | .numberOutOfRange => "number out of range"
  | .invalidEscape => "invalid escape"
  | .controlCharacter => "control character (\\u0000-\\u001F) found while parsing a string"
  | .invalidCodePoint => "invalid unicode code point"
  | .loneSurrogate => "lone leading surrogate in hex escape"
  | .endOfHexEscape => "unexpected end of hex escape"
  | .tooDeep => "recursion limit exceeded"

/-- Whether more bytes could mend the fault. -/
def isEnd : Fault → Bool
  | .endInValue => true
  | .endInList => true
  | .endInObject => true
  | .endInString => true
  | _ => false

end Fault

/-- One less than the number of containers that may not be open at once. -/
def depthLimit : Nat := 127

/-! ## Numbers -/

/-- A number being read: `significand * 10 ^ exponent` so far. Digits that do not fit 64 bits count
into the exponent before the point and are dropped behind it. -/
inductive Numeral where
  | sign
  | zero
  | whole (significand : Nat)
  | longWhole (significand : Nat) (exponent : Int)
  | point (significand : Nat) (exponent : Int)
  | part (significand : Nat) (exponent : Int)
  | longPart (significand : Nat) (exponent : Int)
  | mark (significand : Nat) (exponent : Int)
  | markSign (significand : Nat) (exponent : Int) (down : Bool)
  | power (significand : Nat) (exponent : Int) (down : Bool) (shift : Nat)
  | vanished
  deriving DecidableEq, Repr

inductive NumeralStep where
  | more (n : Numeral)
  | over
  | fault (f : Fault)
  deriving DecidableEq, Repr

namespace Numeral

def maxShift : Nat := 2147483647

def digit? (b : UInt8) : Option Nat :=
  if 0x30 ≤ b.toNat ∧ b.toNat ≤ 0x39 then some (b.toNat - 0x30) else none

def isPoint (b : UInt8) : Bool := b == 0x2E

def isMark (b : UInt8) : Bool := b == 0x65 || b == 0x45

def fits (significand d : Nat) : Bool := 10 * significand + d ≤ maxNat

def stepPart (significand : Nat) (exponent : Int) (d : Nat) : Numeral :=
  if fits significand d then .part (10 * significand + d) (exponent - 1)
  else .longPart significand exponent

def stepPower (significand : Nat) (exponent : Int) (down : Bool) (shift d : Nat) : NumeralStep :=
  if 10 * shift + d ≤ maxShift then .more (.power significand exponent down (10 * shift + d))
  else if significand ≠ 0 ∧ !down then .fault .numberOutOfRange
  else .more .vanished

/-- What follows a mantissa that is complete. -/
def stepMark (b : UInt8) (significand : Nat) (exponent : Int) : NumeralStep :=
  if isMark b then .more (.mark significand exponent) else .over

def stepPoint (b : UInt8) (significand : Nat) (exponent : Int) : NumeralStep :=
  if isPoint b then .more (.point significand exponent) else stepMark b significand exponent

def step (n : Numeral) (b : UInt8) : NumeralStep :=
  match n, digit? b with
  | .sign, some 0 => .more .zero
  | .sign, some d => .more (.whole d)
  | .sign, none => .fault .invalidNumber
  | .zero, some _ => .fault .invalidNumber
  | .zero, none => stepPoint b 0 0
  | .whole s, some d => .more (if fits s d then .whole (10 * s + d) else .longWhole s 1)
  | .whole s, none => stepPoint b s 0
  | .longWhole s e, some _ => .more (.longWhole s (e + 1))
  | .longWhole s e, none => stepPoint b s e
  | .point s e, some d => .more (stepPart s e d)
  | .point _ _, none => .fault .invalidNumber
  | .part s e, some d => .more (stepPart s e d)
  | .part s e, none => stepMark b s e
  | .longPart s e, some _ => .more (.longPart s e)
  | .longPart s e, none => stepMark b s e
  | .mark s e, some d => .more (.power s e false d)
  | .mark s e, none =>
    if b = 0x2B then .more (.markSign s e false)
    else if b = 0x2D then .more (.markSign s e true)
    else .fault .invalidNumber
  | .markSign s e down, some d => .more (.power s e down d)
  | .markSign _ _ _, none => .fault .invalidNumber
  | .power s e down p, some d => stepPower s e down p d
  | .power _ _ _ _, none => .over
  | .vanished, some _ => .more .vanished
  | .vanished, none => .over

/-- A double with its sign, if there is one. -/
def signed (negative : Bool) : Option Binary64 → Except Fault Json
  | some f => .ok (.float ⟨negative, f.mantissa, f.scale⟩)
  | none => .error .numberOutOfRange

def float (negative : Bool) (significand : Nat) (exponent : Int) : Except Fault Json :=
  signed negative ((Binary64.ofNat significand).bind fun f => f.timesTenPow exponent)

/-- An integer if the range holds it and it is not a negative zero, else a double. -/
def integer (negative : Bool) (significand : Nat) : Except Fault Json :=
  if !negative then .ok (.int significand)
  else if significand ≠ 0 ∧ significand ≤ Nat.pow 2 63 then .ok (.int (-(significand : Int)))
  else float true significand 0

/-- The number, once its text has ended. -/
def value (negative : Bool) : Numeral → Except Fault Json
  | .zero => integer negative 0
  | .whole s => integer negative s
  | .longWhole s e => float negative s e
  | .part s e => float negative s e
  | .longPart s e => float negative s e
  | .power s e down p => float negative s (if down then e - p else e + p)
  | .vanished => float negative 0 0
  | _ => .error .endInValue

end Numeral

/-! ## Strings -/

/-- How far an escape has been read; `high` is a leading surrogate that waits for its partner. -/
inductive Escape where
  | none
  | opened
  | hex (seen : List UInt8) (high : Option Nat)
  | wantSlash (high : Nat)
  | wantU (high : Nat)
  deriving DecidableEq, Repr

/-- A string being read: its bytes without escapes, backwards. -/
structure Literal where
  content : Bytes
  escape : Escape
  deriving DecidableEq, Repr

inductive LiteralStep where
  | more (l : Literal)
  | done (s : String)
  | fault (f : Fault) (back : Nat)
  deriving DecidableEq, Repr

namespace Literal

def empty : Literal := ⟨[], .none⟩

/-- Goes on, having read the content `more`. -/
def go (l : Literal) (more : Bytes) (e : Escape) : LiteralStep :=
  .more ⟨more.reverse ++ l.content, e⟩

/-- The text, or how many bytes of content there are from the first that belongs to no character:
the fault is placed so far before the end of the string, whatever escapes stand there. -/
def close (l : Literal) : LiteralStep :=
  match Utf8.decode? l.content.reverse with
  | some s => .done s
  | none => .fault .invalidCodePoint (l.content.length - Utf8.validLength l.content.reverse)

def escaped? (b : UInt8) : Option UInt8 :=
  if b = 0x22 then some 0x22
  else if b = 0x5C then some 0x5C
  else if b = 0x2F then some 0x2F
  else if b = 0x62 then some 0x08
  else if b = 0x66 then some 0x0C
  else if b = 0x6E then some 0x0A
  else if b = 0x72 then some 0x0D
  else if b = 0x74 then some 0x09
  else none

def hexValue (bs : List UInt8) : Option Nat :=
  bs.foldl (fun acc b => do
    let n ← acc
    let d ← Hex.value? b.toNat
    return 16 * n + d) (some 0)

/-- Takes four hexadecimal digits as a code unit. -/
def closeHex (l : Literal) (high : Option Nat) (unit : Nat) : LiteralStep :=
  match high with
  | some h =>
    if 0xDC00 ≤ unit ∧ unit < 0xE000 then
      l.go (Utf8.encodeNat (0x10000 + (h - 0xD800) * 0x400 + (unit - 0xDC00))) .none
    else .fault .loneSurrogate 0
  | none =>
    if 0xDC00 ≤ unit ∧ unit < 0xE000 then .fault .loneSurrogate 0
    else if 0xD800 ≤ unit ∧ unit < 0xDC00 then l.go [] (.wantSlash unit)
    else l.go (Utf8.encodeNat unit) .none

def step (l : Literal) (b : UInt8) : LiteralStep :=
  match l.escape with
  | .none =>
    if b = 0x22 then l.close
    else if b = 0x5C then l.go [] .opened
    else if b.toNat < 0x20 then .fault .controlCharacter 0
    else l.go [b] .none
  | .opened =>
    if b = 0x75 then l.go [] (.hex [] .none)
    else
      match escaped? b with
      | some c => l.go [c] .none
      | none => .fault .invalidEscape 0
  | .hex seen high =>
    if seen.length < 3 then l.go [] (.hex (seen ++ [b]) high)
    else
      match hexValue (seen ++ [b]) with
      | some unit => closeHex l high unit
      | none => .fault .invalidEscape 0
  | .wantSlash high => if b = 0x5C then l.go [] (.wantU high) else .fault .endOfHexEscape 0
  | .wantU high => if b = 0x75 then l.go [] (.hex [] (some high)) else .fault .endOfHexEscape 0

end Literal

/-! ## Values -/

/-- A container that is open: its items backwards, or its fields and the last name read. -/
inductive Frame where
  | arr (items : List Json)
  | obj (fields : Fields) (key : String)
  deriving Repr

inductive State where
  | value
  | itemOrEnd
  | item
  | afterItem
  | keyOrEnd
  | key
  | keyText (l : Literal)
  | colon
  | afterMember
  | ident (rest : Bytes) (v : Json)
  | text (l : Literal)
  | number (negative : Bool) (n : Numeral)
  deriving Repr

inductive Step where
  | more (s : State) (stack : List Frame)
  | done (v : Json)
  | fault (f : Fault) (back : Nat)
  deriving Repr

def isBlankByte (b : UInt8) : Bool := b == 0x20 || b == 0x09 || b == 0x0A || b == 0x0D

/-- Puts a finished value where it belongs. -/
def deliver (v : Json) : List Frame → Step
  | [] => .done v
  | .arr items :: stack => .more .afterItem (.arr (v :: items) :: stack)
  | .obj fields key :: stack => .more .afterMember (.obj (insertField key v fields) key :: stack)

def openFrame (stack : List Frame) (s : State) (frame : Frame) : Step :=
  if stack.length < depthLimit then .more s (frame :: stack) else .fault .tooDeep 0

/-- The first byte of a value that is not blank. -/
def startValue (stack : List Frame) (b : UInt8) : Step :=
  if b = 0x22 then .more (.text .empty) stack
  else if b = 0x5B then openFrame stack .itemOrEnd (.arr [])
  else if b = 0x7B then openFrame stack .keyOrEnd (.obj [] "")
  else if b = 0x2D then .more (.number true .sign) stack
  else if b = 0x30 then .more (.number false .zero) stack
  else if 0x31 ≤ b.toNat ∧ b.toNat ≤ 0x39 then .more (.number false (.whole (b.toNat - 0x30))) stack
  else if b = 0x6E then .more (.ident [0x75, 0x6C, 0x6C] .null) stack
  else if b = 0x74 then .more (.ident [0x72, 0x75, 0x65] (.bool true)) stack
  else if b = 0x66 then .more (.ident [0x61, 0x6C, 0x73, 0x65] (.bool false)) stack
  else .fault .expectedValue 0

def closeFrame : List Frame → Step
  | .arr items :: stack => deliver (.arr items.reverse) stack
  | .obj fields _ :: stack => deliver (.obj fields) stack
  | [] => .fault .expectedValue 0

/-- Records the name of the next member. -/
def named (key : String) : List Frame → List Frame
  | .obj fields _ :: stack => .obj fields key :: stack
  | stack => stack

def stepAfterItem (stack : List Frame) (b : UInt8) : Step :=
  if b = 0x5D then closeFrame stack
  else if b = 0x2C then .more .item stack
  else .fault .expectedListCommaOrEnd 0

def stepAfterMember (stack : List Frame) (b : UInt8) : Step :=
  if b = 0x7D then closeFrame stack
  else if b = 0x2C then .more .key stack
  else .fault .expectedObjectCommaOrEnd 0

/-- The byte behind a finished value, in the innermost container. -/
def stepAfter (stack : List Frame) (b : UInt8) : Step :=
  match stack with
  | .arr _ :: _ => if isBlankByte b then .more .afterItem stack else stepAfterItem stack b
  | _ => if isBlankByte b then .more .afterMember stack else stepAfterMember stack b

def stepLiteral (r : LiteralStep) (more : Literal → Step) (done : String → Step) : Step :=
  match r with
  | .more l => more l
  | .done s => done s
  | .fault f back => .fault f back

/-- Reads one byte. A number ends before the byte that shows its end, so its value is delivered
first. -/
def step (s : State) (stack : List Frame) (b : UInt8) : Step :=
  match s with
  | .value => if isBlankByte b then .more .value stack else startValue stack b
  | .itemOrEnd =>
    if isBlankByte b then .more .itemOrEnd stack
    else if b = 0x5D then closeFrame stack
    else startValue stack b
  | .item =>
    if isBlankByte b then .more .item stack
    else if b = 0x5D then .fault .trailingComma 0
    else startValue stack b
  | .afterItem => if isBlankByte b then .more .afterItem stack else stepAfterItem stack b
  | .keyOrEnd =>
    if isBlankByte b then .more .keyOrEnd stack
    else if b = 0x7D then closeFrame stack
    else if b = 0x22 then .more (.keyText .empty) stack
    else .fault .keyNotString 0
  | .key =>
    if isBlankByte b then .more .key stack
    else if b = 0x7D then .fault .trailingComma 0
    else if b = 0x22 then .more (.keyText .empty) stack
    else .fault .keyNotString 0
  | .keyText l =>
    stepLiteral (l.step b) (fun l => .more (.keyText l) stack)
      (fun k => .more .colon (named k stack))
  | .colon =>
    if isBlankByte b then .more .colon stack
    else if b = 0x3A then .more .value stack
    else .fault .expectedColon 0
  | .afterMember => if isBlankByte b then .more .afterMember stack else stepAfterMember stack b
  | .ident [] v => deliver v stack
  | .ident [c] v => if b = c then deliver v stack else .fault .expectedIdent 0
  | .ident (c :: d :: rest) v =>
    if b = c then .more (.ident (d :: rest) v) stack else .fault .expectedIdent 0
  | .text l =>
    stepLiteral (l.step b) (fun l => .more (.text l) stack) (fun s => deliver (.str s) stack)
  | .number negative n =>
    match n.step b with
    | .more n => .more (.number negative n) stack
    | .fault f => .fault f 0
    | .over =>
      match n.value negative with
      | .error f => .fault f 1
      | .ok v =>
        match deliver v stack with
        | .more _ stack => stepAfter stack b
        | r => r

/-- What a reading that has not ended would miss. -/
def missing (s : State) (stack : List Frame) : Fault :=
  match s with
  | .itemOrEnd => .endInList
  | .afterItem => .endInList
  | .keyOrEnd => .endInObject
  | .colon => .endInObject
  | .afterMember => .endInObject
  | .keyText _ => .endInString
  | .text _ => .endInString
  | .number _ _ =>
    match stack with
    | .arr _ :: _ => .endInList
    | .obj _ _ :: _ => .endInObject
    | [] => .endInValue
  | _ => .endInValue

/-- The value of a text that ends here: only a number outside all containers may. -/
def atEnd (s : State) (stack : List Frame) : Except Fault Json :=
  match s with
  | .number negative n =>
    match n.value negative with
    | .error f => .error f
    | .ok v => if stack.isEmpty then .ok v else .error (missing s stack)
  | _ => .error (missing s stack)

/-- Where a reading stands: a value has ended before `rest`, the text has ended, or a fault has
shown after `read` bytes. -/
inductive Outcome where
  | value (v : Json) (rest : Bytes)
  | ended (s : State) (stack : List Frame)
  | fault (f : Fault) (read : Nat)
  deriving Repr

/-- Whether a value that is done was a number by itself, which ends before the byte that shows
it. -/
def endsBefore : State → List Frame → Bool
  | .number _ _, [] => true
  | _, _ => false

/-- Runs the machine, which has read `count` bytes, until a value is done. -/
def run (s : State) (stack : List Frame) (count : Nat) : Bytes → Outcome
  | [] => .ended s stack
  | b :: bs =>
    match step s stack b with
    | .more s' stack' => run s' stack' (count + 1) bs
    | .done v => .value v (if endsBefore s stack then b :: bs else bs)
    | .fault f back => .fault f (count + 1 - back)

/-! ## Positions -/

/-- A line, from one, and how many bytes of it have been read. -/
structure Position where
  line : Nat
  column : Nat
  deriving DecidableEq, Repr

namespace Position

def advance (p : Position) (b : UInt8) : Position :=
  if b = 0x0A then ⟨p.line + 1, 0⟩ else ⟨p.line, p.column + 1⟩

def after (bs : Bytes) : Position := bs.foldl advance ⟨1, 0⟩

end Position

structure ReadError where
  fault : Fault
  position : Position
  deriving DecidableEq, Repr

namespace ReadError

def message (e : ReadError) : String :=
  s!"{e.fault.message} at line {e.position.line} column {e.position.column}"

/-- A fault that shows once `read` bytes of a text have been read. -/
def locate (bs : Bytes) (f : Fault) (read : Nat) : ReadError := ⟨f, .after (bs.take read)⟩

end ReadError

def skipBlanks (bs : Bytes) : Bytes := bs.dropWhile isBlankByte

def read (bs : Bytes) : Except ReadError Json :=
  match run .value [] 0 bs with
  | .value v rest =>
    match skipBlanks rest with
    | [] => .ok v
    | _ :: more => .error (.locate bs .trailingCharacters (bs.length - more.length))
  | .ended s stack =>
    match atEnd s stack with
    | .ok v => .ok v
    | .error f => .error (.locate bs f bs.length)
  | .fault f n => .error (.locate bs f n)

/-- Whether a value that opens with `b` shows its own end. -/
def isDelimited (b : UInt8) : Bool := b == 0x22 || b == 0x5B || b == 0x7B

/-- Whether `b` may stand right behind a value that does not show its own end. -/
def isDelimiter (b : UInt8) : Bool :=
  isBlankByte b || [0x22, 0x5B, 0x5D, 0x7B, 0x7D, 0x2C, 0x3A].contains b

/-- The first value of a text and what follows it; `none` if the text ends before the value
does. -/
def readFirst (bs : Bytes) : Except ReadError (Option (Json × Bytes)) :=
  match skipBlanks bs with
  | [] => .ok none
  | first :: _ =>
    match run .value [] 0 bs with
    | .value v [] => .ok (some (v, []))
    | .value v (b :: rest) =>
      if isDelimited first || isDelimiter b then .ok (some (v, b :: rest))
      else .error (.locate bs .trailingCharacters (bs.length - rest.length))
    | .ended s stack =>
      match atEnd s stack with
      | .ok v => .ok (some (v, []))
      | .error f => .error (.locate bs f bs.length)
    | .fault f n => .error (.locate bs f n)

end Json

end WebResource
