import CyclicQueue.Json.Numeral

/-!
# Passing over a value

A value that no field asks for is passed over. The brackets that are open around the current place
are kept in a list, so values may be nested to any depth.
-/

namespace CyclicQueue.Json

inductive Bracket where
  | list
  | object
  deriving DecidableEq, Repr

/-- Passes over a numeral. One that breaks off is malformed, also at the end of the text. -/
def skipNumeral (text : List Char) : Except ReadFault (List Char) :=
  match readNumeral text with
  | .error _ => .error .malformed
  | .ok (_, rest) => .ok rest

/-- Passes over a string from after its opening quote on. -/
def skipString (text : List Char) : Except ReadFault (List Char) :=
  match readString false text with
  | .error fault => .error fault
  | .ok (_, rest) => .ok rest

/-- Passes over a value that has no parts. -/
def skipScalar : List Char → Except ReadFault (List Char)
  | [] => .error .endsEarly
  | 'n' :: text => readWord ['u', 'l', 'l'] text
  | 't' :: text => readWord ['r', 'u', 'e'] text
  | 'f' :: text => readWord ['a', 'l', 's', 'e'] text
  | '"' :: text => skipString text
  | c :: text => if c = '-' ∨ c.isDigit then skipNumeral (c :: text) else .error .malformed

def readColon (text : List Char) : Except ReadFault (List Char) :=
  match skipBlanks text with
  | ':' :: rest => .ok rest
  | text => .error (stopsAt text)

/-- Passes over the name of a field and the colon after it. -/
def skipName (text : List Char) : Except ReadFault (List Char) :=
  match skipBlanks text with
  | '"' :: text =>
    match skipString text with
    | .error fault => .error fault
    | .ok rest => readColon rest
  | text => .error (stopsAt text)

theorem length_skipNumeral_lt {text rest : List Char} (h : skipNumeral text = .ok rest) :
    rest.length < text.length := by
  unfold skipNumeral at h
  split at h
  · simp at h
  · next hn =>
    cases h
    exact length_readNumeral_lt hn

theorem length_skipString_lt {text rest : List Char} (h : skipString text = .ok rest) :
    rest.length < text.length := by
  unfold skipString at h
  split at h
  · simp at h
  · next hs =>
    cases h
    exact length_readString_lt hs

theorem length_skipScalar_lt {text rest : List Char} (h : skipScalar text = .ok rest) :
    rest.length < text.length := by
  unfold skipScalar at h
  split at h
  · simp at h
  · exact Nat.lt_succ_of_le (length_readWord_le h)
  · exact Nat.lt_succ_of_le (length_readWord_le h)
  · exact Nat.lt_succ_of_le (length_readWord_le h)
  · exact Nat.lt_succ_of_lt (length_skipString_lt h)
  · split at h
    · exact length_skipNumeral_lt h
    · simp at h

theorem length_readColon_lt {text rest : List Char} (h : readColon text = .ok rest) :
    rest.length < text.length := by
  unfold readColon at h
  split at h
  · next hs =>
    cases h
    exact length_lt_of_skipBlanks hs
  · simp at h

theorem length_skipName_lt {text rest : List Char} (h : skipName text = .ok rest) :
    rest.length < text.length := by
  unfold skipName at h
  split at h
  · next hs =>
    have := length_lt_of_skipBlanks hs
    split at h
    · simp at h
    · next hn =>
      have := length_skipString_lt hn
      have := length_readColon_lt h
      omega
  · simp at h

/-! ## Nested values

A step passes over one value without parts, or over one opening bracket, and over all that closes
after it. It answers with the brackets still open: another value follows where there are any. -/

/-- Passes over closing brackets, and over what leads to the next value. -/
def skipClosings : List Bracket → List Char → Except ReadFault (List Bracket × List Char)
  | [], text => .ok ([], text)
  | bracket :: outer, text =>
    match skipBlanks text, bracket with
    | ']' :: rest, .list => skipClosings outer rest
    | '}' :: rest, .object => skipClosings outer rest
    | ',' :: rest, .list => .ok (bracket :: outer, rest)
    | ',' :: rest, .object =>
      match skipName rest with
      | .error fault => .error fault
      | .ok rest => .ok (bracket :: outer, rest)
    | text, _ => .error (stopsAt text)

/-- Passes over what follows the opening bracket of a list. -/
def skipOpenList (brackets : List Bracket) (text : List Char) :
    Except ReadFault (List Bracket × List Char) :=
  match skipBlanks text with
  | [] => .error .endsEarly
  | ']' :: rest => skipClosings brackets rest
  | _ => .ok (.list :: brackets, text)

/-- Passes over what follows the opening bracket of an object. -/
def skipOpenObject (brackets : List Bracket) (text : List Char) :
    Except ReadFault (List Bracket × List Char) :=
  match skipBlanks text with
  | '}' :: rest => skipClosings brackets rest
  | _ =>
    match skipName text with
    | .error fault => .error fault
    | .ok rest => .ok (.object :: brackets, rest)

/-- One step inside the given brackets. -/
def skipStep (brackets : List Bracket) (text : List Char) :
    Except ReadFault (List Bracket × List Char) :=
  match skipBlanks text with
  | '[' :: rest => skipOpenList brackets rest
  | '{' :: rest => skipOpenObject brackets rest
  | text =>
    match skipScalar text with
    | .error fault => .error fault
    | .ok rest => skipClosings brackets rest

theorem length_skipClosings_le {brackets left : List Bracket} {text rest : List Char}
    (h : skipClosings brackets text = .ok (left, rest)) : rest.length ≤ text.length := by
  induction brackets generalizing text with
  | nil =>
    cases h
    exact Nat.le_refl _
  | cons bracket outer ih =>
    unfold skipClosings at h
    split at h
    · next hs => exact Nat.le_trans (ih h) (Nat.le_of_lt (length_lt_of_skipBlanks hs))
    · next hs => exact Nat.le_trans (ih h) (Nat.le_of_lt (length_lt_of_skipBlanks hs))
    · next hs =>
      cases h
      exact Nat.le_of_lt (length_lt_of_skipBlanks hs)
    · next hs =>
      have := length_lt_of_skipBlanks hs
      split at h
      · simp at h
      · next hn =>
        cases h
        have := length_skipName_lt hn
        omega
    · simp at h

theorem length_skipOpenList_le {brackets left : List Bracket} {text rest : List Char}
    (h : skipOpenList brackets text = .ok (left, rest)) : rest.length ≤ text.length := by
  unfold skipOpenList at h
  split at h
  · simp at h
  · next hs =>
    exact Nat.le_trans (length_skipClosings_le h) (Nat.le_of_lt (length_lt_of_skipBlanks hs))
  · cases h
    exact Nat.le_refl _

theorem length_skipOpenObject_le {brackets left : List Bracket} {text rest : List Char}
    (h : skipOpenObject brackets text = .ok (left, rest)) : rest.length ≤ text.length := by
  unfold skipOpenObject at h
  split at h
  · next hs =>
    exact Nat.le_trans (length_skipClosings_le h) (Nat.le_of_lt (length_lt_of_skipBlanks hs))
  · split at h
    · simp at h
    · next hn =>
      cases h
      exact Nat.le_of_lt (length_skipName_lt hn)

theorem length_skipStep_lt {brackets left : List Bracket} {text rest : List Char}
    (h : skipStep brackets text = .ok (left, rest)) : rest.length < text.length := by
  unfold skipStep at h
  split at h
  · next hs => exact Nat.lt_of_le_of_lt (length_skipOpenList_le h) (length_lt_of_skipBlanks hs)
  · next hs => exact Nat.lt_of_le_of_lt (length_skipOpenObject_le h) (length_lt_of_skipBlanks hs)
  · have := length_skipBlanks_le text
    split at h
    · simp at h
    · next hs =>
      have := length_skipScalar_lt hs
      have := length_skipClosings_le h
      omega

/-- Passes over a value and over what is left of the given brackets after it. -/
def skipWithin (brackets : List Bracket) (text : List Char) : Except ReadFault (List Char) :=
  match _step : skipStep brackets text with
  | .error fault => .error fault
  | .ok ([], rest) => .ok rest
  | .ok (bracket :: outer, rest) => skipWithin (bracket :: outer) rest
termination_by text.length
decreasing_by exact length_skipStep_lt _step

def skipValue (text : List Char) : Except ReadFault (List Char) :=
  skipWithin [] text

theorem length_skipWithin_lt {brackets : List Bracket} {text rest : List Char}
    (h : skipWithin brackets text = .ok rest) : rest.length < text.length := by
  fun_induction skipWithin brackets text with
  | case1 => simp at h
  | case2 _ _ _ step =>
    cases h
    exact length_skipStep_lt step
  | case3 _ _ _ _ _ step ih => exact Nat.lt_trans (ih h) (length_skipStep_lt step)

end CyclicQueue.Json
