/-!
# The fewest digits that name a binary fraction

A number m · 2 ^ q of binary floating point stands for every real that rounds to it. `shortest`
finds the decimal with the fewest digits among them, and of these the nearest one, in exact
arithmetic: on each decimal grid, coarse to fine, it tries the two neighbours of the value.
-/

namespace CyclicQueue.Decimal

/-- A positive binary fraction, `mantissa * 2 ^ exponent`. At the bottom of a binade the gap to
the next smaller number is half of the gap to the next larger one. -/
structure Binary where
  mantissa : Nat
  exponent : Int
  atBottom : Bool
  deriving DecidableEq, Repr

/-- A decimal number, `digits * 10 ^ exponent`. -/
structure Scaled where
  digits : Nat
  exponent : Int
  deriving DecidableEq, Repr

/-- The parts of a finite number, without its sign. -/
def Binary.ofFloat (value : Float) : Binary :=
  let bits : Nat := value.toBits.toNat % Nat.pow 2 63
  let field : Nat := bits / Nat.pow 2 52
  let fraction : Nat := bits % Nat.pow 2 52
  if field = 0 then ⟨fraction, -1074, false⟩
  else ⟨Nat.pow 2 52 + fraction, (field : Int) - 1075, fraction == 0 && 1 < field⟩

/-- The factors `a` and `b` that make `a * 2 ^ twos * 10 ^ tens` comparable with `b` in natural
numbers. -/
def factors (twos tens : Int) : Nat × Nat :=
  (Nat.pow 2 twos.toNat * Nat.pow 10 tens.toNat,
    Nat.pow 2 (-twos).toNat * Nat.pow 10 (-tens).toNat)

namespace Binary

/-- Whether a decimal rounds to the number. The ends of the range round to it where the mantissa
is even. -/
def covers (number : Binary) (decimal : Scaled) : Bool :=
  let (own, other) := factors (number.exponent - 2) (-decimal.exponent)
  let low := (4 * number.mantissa - if number.atBottom then 1 else 2) * own
  let high := (4 * number.mantissa + 2) * own
  let point := decimal.digits * other
  if number.mantissa % 2 = 0 then low ≤ point && point ≤ high else low < point && point < high

/-- The greatest multiple of `10 ^ tens` that is not above the number, as a number of steps. -/
def floorAt (number : Binary) (tens : Int) : Nat :=
  let (own, other) := factors number.exponent (-tens)
  number.mantissa * own / other

/-- Whether the number is nearer to step `steps + 1` of the grid `10 ^ tens` than to step
`steps`, or as near to both and `steps` is odd. -/
def nearerAbove (number : Binary) (tens : Int) (steps : Nat) : Bool :=
  let (own, other) := factors number.exponent (-tens)
  let twice := 2 * number.mantissa * own
  let middle := (2 * steps + 1) * other
  middle < twice || (middle == twice && steps % 2 == 1)

/-- The decimal of the grid `10 ^ tens` that rounds to the number, the nearer one of two. -/
def onGrid? (number : Binary) (tens : Int) : Option Scaled :=
  let below : Scaled := ⟨number.floorAt tens, tens⟩
  let above : Scaled := ⟨number.floorAt tens + 1, tens⟩
  match number.covers below, number.covers above with
  | true, true => some (if number.nearerAbove tens below.digits then above else below)
  | true, false => some below
  | false, true => some above
  | false, false => none

/-- The least exponent, from `low` on, of a power of ten above the number. -/
def magnitude (number : Binary) (low : Int) : Nat → Int
  | 0 => low
  | fuel + 1 => if number.floorAt low = 0 then low else magnitude number (low + 1) fuel

/-- The first hit on the grids of `count`, `count + 1`, … digits. -/
def firstHit (number : Binary) (top : Int) (count : Nat) : Nat → Option Scaled
  | 0 => none
  | fuel + 1 =>
    (number.onGrid? (top - count)).orElse fun _ => number.firstHit top (count + 1) fuel

end Binary

/-- Moves the zeros at the end of the digits into the exponent. -/
def Scaled.strip (decimal : Scaled) : Nat → Scaled
  | 0 => decimal
  | fuel + 1 =>
    if decimal.digits ≠ 0 ∧ decimal.digits % 10 = 0 then
      strip ⟨decimal.digits / 10, decimal.exponent + 1⟩ fuel
    else decimal

/-- The decimal with the fewest digits that rounds to the number. Seventeen digits are enough for
every number; one for which they were not would be given exactly. -/
def shortest (number : Binary) : Scaled :=
  let found := (number.firstHit (number.magnitude (-330) 650) 1 17).getD
    ⟨number.floorAt (-1074), -1074⟩
  found.strip 1100

end CyclicQueue.Decimal
