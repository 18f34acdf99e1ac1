/-!
# Bytes read as characters of one to four bytes

Reading goes byte by byte and always succeeds: a stretch that is no character is a broken piece,
cut at the first byte that cannot follow what was read before it. That byte is then read afresh.
-/

namespace CyclicQueue.Text.Utf8

/-- What a stretch of bytes is. -/
inductive Piece where
  | char (c : Char)
  | broken (bytes : List UInt8)
  deriving DecidableEq, Repr

/-- A character begun: the bytes read, the number they make up so far, how many bytes are to come,
and the range of the next one. -/
structure Begun where
  bytes : List UInt8
  value : Nat
  missing : Nat
  low : UInt8
  high : UInt8
  deriving DecidableEq, Repr

/-- What a first byte is: a piece of its own or a character begun. The range of the second byte
keeps out the longer spellings of a shorter character, the surrogates and the numbers above
U+10FFFF. -/
def start (byte : UInt8) : Piece ⊕ Begun :=
  if byte < 0x80 then .inl (.char (Char.ofNat byte.toNat))
  else if byte < 0xC2 then .inl (.broken [byte])
  else if byte < 0xE0 then .inr ⟨[byte], byte.toNat % 32, 1, 0x80, 0xBF⟩
  else if byte < 0xF0 then
    .inr ⟨[byte], byte.toNat % 16, 2, if byte = 0xE0 then 0xA0 else 0x80,
      if byte = 0xED then 0x9F else 0xBF⟩
  else if byte < 0xF5 then
    .inr ⟨[byte], byte.toNat % 8, 3, if byte = 0xF0 then 0x90 else 0x80,
      if byte = 0xF4 then 0x8F else 0xBF⟩
  else .inl (.broken [byte])

/-- A character begun, with one more byte. -/
def Begun.extend (begun : Begun) (byte : UInt8) : Begun :=
  ⟨begun.bytes ++ [byte], begun.value * 64 + byte.toNat % 64, begun.missing - 1, 0x80, 0xBF⟩

/-- The pieces of the bytes that follow a character begun, if there is one. -/
def piecesFrom : Option Begun → List UInt8 → List Piece
  | none, [] => []
  | some begun, [] => [.broken begun.bytes]
  | none, byte :: rest =>
    match start byte with
    | .inl piece => piece :: piecesFrom none rest
    | .inr begun => piecesFrom (some begun) rest
  | some begun, byte :: rest =>
    if begun.low ≤ byte ∧ byte ≤ begun.high then
      if begun.missing = 1 then
        .char (Char.ofNat (begun.extend byte).value) :: piecesFrom none rest
      else piecesFrom (some (begun.extend byte)) rest
    else
      .broken begun.bytes ::
        match start byte with
        | .inl piece => piece :: piecesFrom none rest
        | .inr begun => piecesFrom (some begun) rest

def pieces (bytes : List UInt8) : List Piece :=
  piecesFrom none bytes

/-- The character a piece is, unless it is broken. -/
def Piece.char? : Piece → Option Char
  | .char c => some c
  | .broken _ => none

/-- The text that `bytes` spell, unless a piece is broken. -/
def decode? (bytes : List UInt8) : Option String :=
  ((pieces bytes).mapM Piece.char?).map String.ofList

end CyclicQueue.Text.Utf8
