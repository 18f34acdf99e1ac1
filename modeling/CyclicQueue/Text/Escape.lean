import CyclicQueue.Text.Grapheme
import CyclicQueue.Text.Printable
import CyclicQueue.Text.Utf8

/-!
# Quoted texts

Two ways to write a text between quotes so that every character can be seen: one for texts, which
escapes the double quote alone, and one for bytes, which reads them as characters, escapes both
quotes and writes what is no character byte by byte.
-/

namespace CyclicQueue.Text

/-- The lowercase hexadecimal digits of a number, without leading zeros. -/
def hexDigits (value : Nat) : String :=
  String.ofList (Nat.toDigits 16 value)

/-- A byte as a backslash, an `x` and two lowercase digits. -/
def escapedByte (byte : UInt8) : String :=
  String.ofList
    ['\\', 'x', Nat.digitChar (byte.toNat / 16), Nat.digitChar (byte.toNat % 16)]

/-- A character as its number between braces. -/
def escapedChar (c : Char) : String :=
  "\\u\x7b" ++ hexDigits c.toNat ++ "\x7d"

/-- A character as it is where it can be shown alone, and else as its number. -/
def shown (c : Char) : String :=
  if isPrintable c && !isDrawnOver c then c.toString else escapedChar c

/-- The escapes that go by a letter or sign. -/
def namedEscape? : Char → Option String
  | '\x00' => some "\\0"
  | '\t' => some "\\t"
  | '\r' => some "\\r"
  | '\n' => some "\\n"
  | '\\' => some "\\\\"
  | '"' => some "\\\""
  | _ => none

/-- A character of a quoted text. -/
def quotedChar (c : Char) : String :=
  (namedEscape? c).getD (shown c)

def quoted (text : String) : String :=
  "\"" ++ String.join (text.toList.map quotedChar) ++ "\""

/-- A character among quoted bytes. One of a single byte that cannot be shown is written as that
byte. -/
def quotedByteChar (c : Char) : String :=
  if c = '\'' then "\\'"
  else
    match namedEscape? c with
    | some escape => escape
    | none =>
      if c.toNat < 128 && !isPrintable c then escapedByte (UInt8.ofNat c.toNat) else shown c

def quotedPiece : Utf8.Piece → String
  | .char c => quotedByteChar c
  | .broken bytes => String.join (bytes.map escapedByte)

def quotedBytes (bytes : List UInt8) : String :=
  "\"" ++ String.join ((Utf8.pieces bytes).map quotedPiece) ++ "\""

end CyclicQueue.Text
