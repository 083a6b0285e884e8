import StyleSieve.Text.Quoted

/-!
# UTF-8

Text as bytes. `pieces` cuts bytes into characters and faults, where a fault covers the bytes
that could have begun a character. `decode` accepts bytes without a fault, `decodeLossy` puts
the replacement character in the place of every fault.
-/

namespace StyleSieve

/-- Contents of a file. -/
abbrev Bytes := List UInt8

namespace Utf8

/-- The bytes of a text. -/
def encode (s : String) : Bytes := s.toList.flatMap String.utf8EncodeChar

/-- What is wrong with bytes. -/
inductive Fault where
  | invalidStart
  | invalidContinuation
  | truncated
  deriving DecidableEq

/-- The name of a fault. -/
def Fault.name : Fault → String
  | .invalidStart => "invalid start byte"
  | .invalidContinuation => "invalid continuation byte"
  | .truncated => "unexpected end of data"

/-- A piece of a byte sequence: a character, or bytes that are none. -/
inductive Piece where
  | char (c : Char)
  | fault (fault : Fault) (first : UInt8) (width : Nat)

/-- A character of which some bytes are missing: how many, between which bounds the next one
lies, the bits so far, the first byte and the number of bytes so far. -/
structure Pending where
  owed : Nat
  low : Nat
  high : Nat
  code : Nat
  first : UInt8
  width : Nat

/-- What a byte between characters begins. -/
def start (b : UInt8) : Piece ⊕ Pending :=
  let n := b.toNat
  if n < 0x80 then .inl (.char (Char.ofNat n))
  else if n < 0xC2 then .inl (.fault .invalidStart b 1)
  else if n < 0xE0 then .inr ⟨1, 0x80, 0xBF, n - 0xC0, b, 1⟩
  else if n < 0xF0 then
    .inr ⟨2, if n == 0xE0 then 0xA0 else 0x80, if n == 0xED then 0x9F else 0xBF, n - 0xE0, b, 1⟩
  else if n < 0xF5 then
    .inr ⟨3, if n == 0xF0 then 0x90 else 0x80, if n == 0xF4 then 0x8F else 0xBF, n - 0xF0, b, 1⟩
  else .inl (.fault .invalidStart b 1)

/-- The character or the pending character behind one more byte. -/
def Pending.advance (p : Pending) (b : UInt8) : Piece ⊕ Pending :=
  let code := 64 * p.code + (b.toNat - 0x80)
  if p.owed ≤ 1 then .inl (.char (Char.ofNat code))
  else .inr ⟨p.owed - 1, 0x80, 0xBF, code, p.first, p.width + 1⟩

/-- Whether a byte can continue a pending character. -/
def Pending.fits (p : Pending) (b : UInt8) : Bool := p.low ≤ b.toNat && b.toNat ≤ p.high

/-- The piece that a step has completed, if it has. -/
def completed : Piece ⊕ Pending → List Piece
  | .inl piece => [piece]
  | .inr _ => []

/-- The character that a step leaves pending, if it does. -/
def pendingOf : Piece ⊕ Pending → Option Pending
  | .inl _ => none
  | .inr p => some p

/-- The pieces of bytes behind a pending character. A byte that does not continue it ends it as a
fault, and begins the next piece. -/
def piecesFrom : Option Pending → Bytes → List Piece
  | none, [] => []
  | some p, [] => [.fault .truncated p.first p.width]
  | none, b :: rest => completed (start b) ++ piecesFrom (pendingOf (start b)) rest
  | some p, b :: rest =>
    if p.fits b then completed (p.advance b) ++ piecesFrom (pendingOf (p.advance b)) rest
    else
      .fault .invalidContinuation p.first p.width ::
        (completed (start b) ++ piecesFrom (pendingOf (start b)) rest)

/-- The pieces of bytes. -/
def pieces (bytes : Bytes) : List Piece := piecesFrom none bytes

/-- A fault and its place. -/
structure Error where
  fault : Fault
  first : UInt8
  offset : Nat
  width : Nat
  deriving DecidableEq

/-- The wording of an error. -/
def Error.message (e : Error) : String :=
  let place :=
    if e.width == 1 then
      "byte 0x" ++ String.ofList (Text.hexPadded 2 e.first.toNat) ++ " in position " ++
        toString e.offset
    else
      "bytes in position " ++ toString e.offset ++ "-" ++ toString (e.offset + e.width - 1)
  "'utf-8' codec can't decode " ++ place ++ ": " ++ e.fault.name

/-- The characters of pieces, the first of which stands at an offset. -/
def charsFrom (offset : Nat) : List Piece → Except Error (List Char)
  | [] => .ok []
  | .char c :: rest => do return c :: (← charsFrom (offset + c.utf8Size) rest)
  | .fault fault first width :: _ => .error ⟨fault, first, offset, width⟩

/-- The text that bytes stand for. -/
def decode (bytes : Bytes) : Except Error String := do
  return String.ofList (← charsFrom 0 (pieces bytes))

/-- The text that bytes stand for, as far as they do. -/
def decodeLossy (bytes : Bytes) : String :=
  String.ofList ((pieces bytes).map fun
    | .char c => c
    | .fault .. => '\uFFFD')

end Utf8

end StyleSieve
