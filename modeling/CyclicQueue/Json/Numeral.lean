import CyclicQueue.Json.Scan

/-!
# Numbers in a text

A numeral is first read as it is spelled and then given a value. Without fraction and exponent it
is an integer, provided that it fits 64 bits; every other numeral is a floating point number.
-/

namespace CyclicQueue.Json

/-- A numeral as it is spelled. There is a point exactly where the fraction has digits. -/
structure Numeral where
  negative : Bool
  whole : List Char
  fraction : List Char
  /-- The sign of the exponent, true for minus, and its digits. -/
  exponent : Option (Bool × List Char)
  deriving DecidableEq, Repr

/-! ## Spelling -/

/-- Reads one digit or more. -/
def readDigits (text : List Char) : Scanned (List Char) :=
  match text.takeWhile Char.isDigit with
  | [] => .error (stopsAt text)
  | digits => .ok (digits, text.dropWhile Char.isDigit)

/-- Reads the digits before the point. A zero is the only digit there where it is the first. -/
def readWhole : List Char → Scanned (List Char)
  | '0' :: text =>
    if (text.takeWhile Char.isDigit).isEmpty then .ok (['0'], text) else .error .malformed
  | text => readDigits text

/-- Reads a point and the digits after it, if there is a point. -/
def readFraction : List Char → Scanned (List Char)
  | '.' :: text => readDigits text
  | text => .ok ([], text)

/-- Reads the sign of an exponent and its digits. -/
def readPower : List Char → Scanned (Bool × List Char)
  | '-' :: text => (readDigits text).map fun (digits, rest) => ((true, digits), rest)
  | '+' :: text => (readDigits text).map fun (digits, rest) => ((false, digits), rest)
  | text => (readDigits text).map fun (digits, rest) => ((false, digits), rest)

/-- Reads an exponent, if there is one. -/
def readExponent : List Char → Scanned (Option (Bool × List Char))
  | 'e' :: text => (readPower text).map fun (power, rest) => (some power, rest)
  | 'E' :: text => (readPower text).map fun (power, rest) => (some power, rest)
  | text => .ok (none, text)

/-- Reads a numeral after its sign. -/
def readUnsigned (negative : Bool) (text : List Char) : Scanned Numeral :=
  match readWhole text with
  | .error fault => .error fault
  | .ok (whole, text) =>
    match readFraction text with
    | .error fault => .error fault
    | .ok (fraction, text) =>
      match readExponent text with
      | .error fault => .error fault
      | .ok (exponent, rest) => .ok ({ negative, whole, fraction, exponent }, rest)

def readNumeral : List Char → Scanned Numeral
  | '-' :: text => readUnsigned true text
  | text => readUnsigned false text

theorem length_readDigits_lt {text rest digits : List Char}
    (h : readDigits text = .ok (digits, rest)) : rest.length < text.length := by
  have happend := congrArg List.length
    (List.takeWhile_append_dropWhile (p := Char.isDigit) (l := text))
  rw [List.length_append] at happend
  unfold readDigits at h
  split at h
  · simp at h
  · next hne =>
    simp only [Except.ok.injEq, Prod.mk.injEq] at h
    have := List.length_pos_iff.2 hne
    rw [← h.2]
    omega

theorem length_readWhole_lt {text rest digits : List Char}
    (h : readWhole text = .ok (digits, rest)) : rest.length < text.length := by
  unfold readWhole at h
  split at h
  · split at h
    · simp_all
    · simp at h
  · exact length_readDigits_lt h

theorem length_readFraction_le {text rest digits : List Char}
    (h : readFraction text = .ok (digits, rest)) : rest.length ≤ text.length := by
  unfold readFraction at h
  split at h
  · have := length_readDigits_lt h
    simp only [List.length_cons]
    omega
  · simp_all

theorem length_readPower_le {text rest : List Char} {power : Bool × List Char}
    (h : readPower text = .ok (power, rest)) : rest.length ≤ text.length := by
  have hmap : ∀ (sign : Bool) (tail : List Char),
      (readDigits tail).map (fun (digits, rest) => ((sign, digits), rest)) = .ok (power, rest) →
        rest.length ≤ tail.length := by
    intro sign tail htail
    cases hd : readDigits tail with
    | error fault => simp [hd, Except.map] at htail
    | ok read =>
      obtain ⟨digits, left⟩ := read
      have := length_readDigits_lt hd
      simp only [hd, Except.map, Except.ok.injEq, Prod.mk.injEq] at htail
      rw [← htail.2]
      omega
  unfold readPower at h
  split at h
  · exact Nat.le_succ_of_le (hmap _ _ h)
  · exact Nat.le_succ_of_le (hmap _ _ h)
  · exact hmap _ _ h

theorem length_readExponent_le {text rest : List Char} {exponent : Option (Bool × List Char)}
    (h : readExponent text = .ok (exponent, rest)) : rest.length ≤ text.length := by
  have hmap : ∀ tail : List Char,
      (readPower tail).map (fun (power, rest) => (some power, rest)) = .ok (exponent, rest) →
        rest.length ≤ tail.length := by
    intro tail htail
    cases hp : readPower tail with
    | error fault => simp [hp, Except.map] at htail
    | ok read =>
      obtain ⟨power, left⟩ := read
      have := length_readPower_le hp
      simp only [hp, Except.map, Except.ok.injEq, Prod.mk.injEq] at htail
      rw [← htail.2]
      omega
  unfold readExponent at h
  split at h
  · exact Nat.le_succ_of_le (hmap _ h)
  · exact Nat.le_succ_of_le (hmap _ h)
  · simp_all

theorem length_readUnsigned_lt {negative : Bool} {text rest : List Char} {numeral : Numeral}
    (h : readUnsigned negative text = .ok (numeral, rest)) : rest.length < text.length := by
  unfold readUnsigned at h
  split at h
  · simp at h
  · next hw =>
    split at h
    · simp at h
    · next hf =>
      split at h
      · simp at h
      · next he =>
        have := length_readWhole_lt hw
        have := length_readFraction_le hf
        have := length_readExponent_le he
        simp only [Except.ok.injEq, Prod.mk.injEq] at h
        rw [← h.2]
        omega

theorem length_readNumeral_lt {text rest : List Char} {numeral : Numeral}
    (h : readNumeral text = .ok (numeral, rest)) : rest.length < text.length := by
  unfold readNumeral at h
  split at h
  · have := length_readUnsigned_lt h
    simp only [List.length_cons]
    omega
  · exact length_readUnsigned_lt h

/-! ## Value -/

def digitValue (c : Char) : Nat :=
  c.toNat - 48

def digitsValue (digits : List Char) : Nat :=
  digits.foldl (fun value c => value * 10 + digitValue c) 0

/-- Appends digits to a number as long as it stays below 2 ^ 64, with the digits left over. -/
def absorb (number : Nat) : List Char → Nat × List Char
  | [] => (number, [])
  | c :: digits =>
    let next := number * 10 + digitValue c
    if next < Nat.pow 2 64 then absorb next digits else (number, c :: digits)

/-- Ten to the given power as a floating point number. -/
def powerOfTen (power : Nat) : Float :=
  Float.ofScientific 1 false power

/-- The greatest power of ten that is a finite floating point number. -/
def greatestPower : Nat := 308

/-- Divides by a power of ten, by the greatest one as long as the power is above it. -/
def scaleDown (value : Float) (power : Nat) : Float :=
  if power ≤ greatestPower then value / powerOfTen power
  else if value == 0 then value
  else scaleDown (value / powerOfTen greatestPower) (power - greatestPower)
termination_by power
decreasing_by
  simp only [greatestPower] at *
  omega

/-- Multiplies by a power of ten, unless the product is too large. -/
def scaleUp? (value : Float) (power : Nat) : Option Float :=
  if power ≤ greatestPower then
    let product := value * powerOfTen power
    if product.isInf then none else some product
  else if value == 0 then some value
  else none

/-- A significand below 2 ^ 64 times a power of ten, unless it is too large. -/
def scale? (significand : Nat) : Int → Option Float
  | .ofNat power => scaleUp? (Float.ofNat significand) power
  | .negSucc power => some (scaleDown (Float.ofNat significand) (power + 1))

namespace Numeral

/-- The value of an integer. Minus zero and integers that do not fit are floating point numbers. -/
def integer (negative : Bool) (size : Nat) : Number :=
  if !negative then .natural size
  else if size = 0 ∨ Nat.pow 2 63 < size then .float (-Float.ofNat size)
  else .minus size

/-- The power of ten that the written exponent adds. -/
def power (numeral : Numeral) : Int :=
  match numeral.exponent with
  | none => 0
  | some (true, digits) => -(digitsValue digits : Int)
  | some (false, digits) => digitsValue digits

/-- The value of a numeral. Of a long one only the digits that fit 64 bits count; the others move
the point. A floating point number that is too large has no value. -/
def value? (numeral : Numeral) : Option Number :=
  let (whole, dropped) := absorb 0 numeral.whole
  if dropped.isEmpty && numeral.fraction.isEmpty && numeral.exponent.isNone then
    some (integer numeral.negative whole)
  else
    let (significand, unread) := absorb whole numeral.fraction
    let places : Int := (numeral.fraction.length - unread.length : Nat)
    (scale? significand (dropped.length - places + numeral.power)).map fun size =>
      .float (if numeral.negative then -size else size)

end Numeral

def readNumber (text : List Char) : Scanned Number :=
  match readNumeral text with
  | .error fault => .error fault
  | .ok (numeral, rest) =>
    match numeral.value? with
    | some value => .ok (value, rest)
    | none => .error .malformed

theorem length_readNumber_lt {text rest : List Char} {value : Number}
    (h : readNumber text = .ok (value, rest)) : rest.length < text.length := by
  unfold readNumber at h
  split at h
  · simp at h
  · next hn =>
    split at h
    · simp only [Except.ok.injEq, Prod.mk.injEq] at h
      exact h.2 ▸ length_readNumeral_lt hn
    · simp at h

end CyclicQueue.Json
