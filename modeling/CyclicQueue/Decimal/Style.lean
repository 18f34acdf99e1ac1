import CyclicQueue.Decimal.Shortest

/-!
# How a floating point number is written

A number is written with the fewest digits that name it: in positional notation where the exponent
of its first digit is neither very small nor very large, and with an exponent otherwise.
-/

namespace CyclicQueue.Decimal

/-- Where a decimal is written in positional notation. -/
structure Style where
  /-- The least exponent of a first digit for which no exponent is written. -/
  leastPositional : Int
  /-- The greatest exponent of a first digit for which no exponent is written. -/
  greatestPositional : Int
  deriving DecidableEq, Repr

/-- The digits of a number, the most significant one first. -/
def digitsOf (n : Nat) : List Char :=
  Nat.toDigits 10 n

/-- `count` zeros. -/
def zeros (count : Nat) : List Char :=
  List.replicate count '0'

/-- Digits and an exponent in positional notation. A whole number ends in a point and one zero. -/
def positional (digits : List Char) (exponent : Int) : List Char :=
  if 0 ≤ exponent then digits ++ zeros exponent.toNat ++ ['.', '0']
  else
    let places := (-exponent).toNat
    let padded := zeros (places + 1 - digits.length) ++ digits
    padded.take (padded.length - places) ++ ['.'] ++ padded.drop (padded.length - places)

/-- Digits and the exponent of the first of them, with a point after the first digit unless it is
the only one. The exponent has a sign and no leading zeros. -/
def scientific (digits : List Char) (leading : Int) : List Char :=
  let fraction := digits.drop 1
  digits.take 1 ++ (if fraction.isEmpty then [] else '.' :: fraction) ++
    ['e', if 0 ≤ leading then '+' else '-'] ++ digitsOf leading.natAbs

/-- A decimal number in the given style. -/
def Style.write (style : Style) (decimal : Scaled) : List Char :=
  let digits := digitsOf decimal.digits
  let leading := decimal.exponent + (digits.length - 1 : Nat)
  if style.leastPositional ≤ leading ∧ leading ≤ style.greatestPositional then
    positional digits decimal.exponent
  else scientific digits leading

/-- A finite number in the given style. Zero keeps its sign. -/
def Style.writeFloat (style : Style) (value : Float) : String :=
  let number := Binary.ofFloat value
  let size := if number.mantissa = 0 then ['0', '.', '0'] else style.write (shortest number)
  String.ofList (if value.toBits < 0x8000000000000000 then size else '-' :: size)

end CyclicQueue.Decimal
