/-!
# Reading bytes as UTF-8

`Utf8.pieces` splits any byte sequence into the characters it encodes and the ill-formed runs
between them. A run is as long as it can be while it still begins some well-formed encoding; a
byte that can begin none is a run of its own. So a broken encoding never takes a byte of the
character after it.

## Main definitions

* `Utf8.encode`: the bytes of a text.
* `Utf8.pieces`: the characters and ill-formed runs of a byte sequence, in order.
* `Utf8.decodeLossy`: the text of a byte sequence, with one replacement character for each run.
-/

namespace TypeRegistry.Text.Utf8

/-- A part of a byte sequence: an encoded character, or a run of bytes that encodes none. -/
inductive Piece where
  /-- The encoding of a character. -/
  | scalar (c : Char)
  /-- Bytes that are no encoding, nor the end of one. -/
  | illFormed (bytes : List UInt8)
deriving DecidableEq, Repr

/-- The bytes that a piece stands for. -/
def Piece.bytes : Piece → List UInt8
  | scalar c => String.utf8EncodeChar c
  | illFormed bytes => bytes

/-- The character shown for a piece: an ill-formed run is shown as one replacement character. -/
def Piece.shown : Piece → Char
  | scalar c => c
  | illFormed _ => '\uFFFD'

/-- The first bytes of an encoding that needs at least one byte more. -/
structure Unfinished where
  /-- The bytes read so far, in order. -/
  bytes : List UInt8
  /-- The number that their payload bits spell. -/
  value : Nat
  /-- The least byte that can come next. -/
  lower : UInt8
  /-- The greatest byte that can come next. -/
  upper : UInt8
  /-- How many bytes come after the next one. -/
  further : Nat
deriving DecidableEq, Repr

/-- The encoding that a first byte opens, if it opens one of several bytes. The limits on the second
byte keep out encodings that are longer than needed, surrogates, and numbers above the last code
point. -/
def Unfinished.ofFirst? (b : UInt8) : Option Unfinished :=
  -- Bytes that only continue an encoding, and `C0` and `C1`, whose encodings are needlessly long.
  if b < 0xC2 then none
  -- Two bytes, with five payload bits in the first.
  else if b ≤ 0xDF then some ⟨[b], b.toNat % 32, 0x80, 0xBF, 0⟩
  -- Three bytes: below `E0 A0` is needlessly long, above `ED 9F` is a surrogate.
  else if b ≤ 0xEF then
    some ⟨[b], b.toNat % 16, if b = 0xE0 then 0xA0 else 0x80, if b = 0xED then 0x9F else 0xBF, 1⟩
  -- Four bytes: below `F0 90` is needlessly long, above `F4 8F` is no code point.
  else if b ≤ 0xF4 then
    some ⟨[b], b.toNat % 8, if b = 0xF0 then 0x90 else 0x80, if b = 0xF4 then 0x8F else 0xBF, 2⟩
  else none

/-- Whether the byte can come next. -/
def Unfinished.accepts (u : Unfinished) (b : UInt8) : Bool :=
  decide (u.lower ≤ b) && decide (b ≤ u.upper)

/-- Adds an accepted byte. The encoding is then complete, or open with one byte more. -/
def Unfinished.extend (u : Unfinished) (b : UInt8) : List Piece × Option Unfinished :=
  let value := u.value * 64 + b.toNat % 64
  match u.further with
  | 0 => ([.scalar (Char.ofNat value)], none)
  | further + 1 => ([], some ⟨u.bytes ++ [b], value, 0x80, 0xBF, further⟩)

/-- Reads a byte where no encoding is open. -/
def readFirst (b : UInt8) : List Piece × Option Unfinished :=
  if b < 0x80 then ([.scalar (Char.ofNat b.toNat)], none)
  else
    match Unfinished.ofFirst? b with
    | some u => ([], some u)
    | none => ([.illFormed [b]], none)

/-- Reads a byte after the open encoding, if there is one. Gives the pieces that this completes and
the encoding that is open afterwards. -/
def read : Option Unfinished → UInt8 → List Piece × Option Unfinished
  | none, b => readFirst b
  | some u, b =>
    if u.accepts b then u.extend b
    -- The open bytes end here, and the new byte is read as if nothing had come before.
    else (.illFormed u.bytes :: (readFirst b).1, (readFirst b).2)

/-- The pieces of an open encoding, if there is one, and the byte sequence after it. -/
def piecesFrom : Option Unfinished → List UInt8 → List Piece
  | open?, [] => open?.toList.map fun u => .illFormed u.bytes
  | open?, b :: rest => (read open? b).1 ++ piecesFrom (read open? b).2 rest

/-- The characters and ill-formed runs of a byte sequence, in order. -/
def pieces (bytes : List UInt8) : List Piece :=
  piecesFrom none bytes

/-- The bytes that spell a text. -/
def encode (s : String) : List UInt8 :=
  s.toList.flatMap String.utf8EncodeChar

/-- The text of a byte sequence, with one replacement character for each ill-formed run. -/
def decodeLossy (bytes : List UInt8) : String :=
  String.ofList ((pieces bytes).map Piece.shown)

end TypeRegistry.Text.Utf8
