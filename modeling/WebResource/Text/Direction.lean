import WebResource.Text.Marks

namespace WebResource

/-!
# Writing direction

The part that a character plays where scripts of both directions meet, and the rule for words whose
display must not depend on their neighbours.
-/

/-- Letters of either direction, digits, the digits of Arabic, signs that follow what stands around
them, and marks. -/
inductive Direction where
  | left
  | right
  | number
  | arabicNumber
  | weak
  | mark
  deriving DecidableEq, Repr

namespace Direction

def rightTable : List String :=
  ["590 5be 5c0 5c3 5c6 5c8-5ff 608 60b 60d 61b-64a 66d-66f 671-6d5 6e5-6e6 6ee-6ef 6fa-710",
    "712-72f 74b-7a5 7b1-7ea 7f4-7f5 7fa-7fc 7fe-815 81a 824 828 82e-858 85c-896 8a0-8c9 200f fb1d",
    "fb1f-fbc2 fbd3-fd3d fd50-fd8f fd92-fdc7 fdf0-fdfc fe70-fefe 10800-1091e 10920-10a00 10a04",
    "10a07-10a0b 10a10-10a37 10a3b-10a3e 10a40-10ae4 10ae7-10b38 10b40-10d23 10d28-10d2f",
    "10d3a-10d68 10d6f-10e5f 10e7f-10eaa 10ead-10ecf 10ed9-10ef9 10f00-10f45 10f51-10f81",
    "10f86-10fff 1e800-1e8cf 1e8d7-1e943 1e94b-1eeef 1eef2-1efff"]

def numberTable : List String :=
  ["30-39 b2-b3 b9 6f0-6f9 2070-2089 2488-249b ff10-ff19 102e1-102fb 1d7ce-1d7ff 1f100-1f10a",
    "1fbf0-1fbf9"]

def arabicNumberTable : List String :=
  ["600-605 660-669 66b-66c 6dd 890-891 8e2 10d30-10d39 10e60-10e7e"]

def weakTable : List String :=
  ["0-8 e-1b 21-2f 3a-60 7b-d7 f7 2b9-2ba 2c2-2cf 2d2-2ed 2ef-2ff 374-375 37e-387 3f6 58a-58f",
    "606-607 609-60a 60c 60e-60f 66a 6de 6e9 7f6-7f9 9f2-9f3 9fb af1 bf3-bfa c78-c7e e3f f3a-f3d",
    "1390-1399 1400 169b-169c 17db 17f0-180e 1940-1945 19de-19ff 1fbd-1fc1 1fcd-1fcf 1fdd-1fdf",
    "1fed-1fef 1ffd-20cf 2100-214d 2150-215f 2189-2335 237b-2394 2396-26ab 26ad-27ff 2900-2bff",
    "2ce5-2cea 2cf9-2cff 2e00-3004 3008-3020 3030 3036-3037 303d-303f 309b-309c 30a0 30fb",
    "31c0-31ef 321d-321e 3250-327e 32b1-33ff 4dc0-4dff a490-a4c6 a60d-a60f a673 a67e-a67f",
    "a700-a721 a788 a828-a82b a838-a839 a874-a877 ab6a-ab6b fb29 fbc3-fe19 fe30-fe6b feff-ffff",
    "10101 10140-1018c 10190-101a0 1091f 10b39-10b3f 10d6e 10ed0-10ed8 11052-11065 11660-1166c",
    "11fd5-11ff1 16fe2 1bca0-1cef0 1d173-1d17a 1d1e9-1d241 1d245 1d300-1d356 1d6db-1d7c3 1e2ff",
    "1eef0-1f12f 1f16a-1f16f 1f1ad 1f260-1ffff 2fffe-2ffff 3fffe-10ffff"]

/-- Marks that count as letters of their script. -/
def leftMarkTable : List String := ["cbf cc6 11a07-11a08 11c3f"]

def tables : List (List CodePoints.Range × Direction) :=
  [(CodePoints.ranges rightTable, .right), (CodePoints.ranges numberTable, .number),
    (CodePoints.ranges arabicNumberTable, .arabicNumber), (CodePoints.ranges weakTable, .weak),
    (CodePoints.ranges leftMarkTable, .left), (Text.nonspacing, .mark), ([⟨0x1171E, 0x1171E⟩], .mark)]

def ofChar (c : Char) : Direction :=
  ((tables.find? fun (ranges, _) => CodePoints.contains ranges c).map (·.2)).getD .left

def isRightToLeft (d : Direction) : Bool := d == .right || d == .arabicNumber

/-- The last direction that is not a mark's. -/
def final (ds : List Direction) : Direction :=
  ((ds.reverse.dropWhile (· == .mark)).head?).getD .mark

/-- A word that reads one way among words of either direction: it starts with a letter, has no
letter of the other direction, and ends in a letter or digit, and one written to the left does not
mix two kinds of digits. -/
def isOneWay (ds : List Direction) : Bool :=
  match ds.head? with
  | some .left =>
    ds.all (fun d => !d.isRightToLeft) && [left, number].contains (final ds)
  | some .right =>
    ds.all (· != .left) && [right, number, arabicNumber].contains (final ds) &&
      !(ds.contains .number && ds.contains .arabicNumber)
  | _ => false

end Direction

end WebResource
