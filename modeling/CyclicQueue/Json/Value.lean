import CyclicQueue.Json.Numeral

/-!
# Reading the values of fields

A field holds a size, a byte, a truth value or a list. What stands there instead is named in the
fault, once it has been read as far as it takes to tell what it is.
-/

namespace CyclicQueue.Json

/-- A reader of values. It takes at least one character off the text. -/
structure Reader (α : Type) where
  run : List Char → Scanned α
  shorter : ∀ {text rest : List Char} {value : α},
    run text = .ok (value, rest) → rest.length < text.length

/-- A reader of values computed from what another reader reads. -/
def Reader.map {α β : Type} (f : α → β) (reader : Reader α) : Reader β where
  run text :=
    match reader.run text with
    | .error fault => .error fault
    | .ok (value, rest) => .ok (f value, rest)
  shorter h := by
    split at h
    · simp at h
    · next hr =>
      simp only [Except.ok.injEq, Prod.mk.injEq] at h
      exact h.2 ▸ reader.shorter hr

/-- A value read from the front of a text only to tell what it is. Lists and objects are told by
their opening bracket. -/
def readFound : List Char → Except ReadFault Found
  | [] => .error .endsEarly
  | 'n' :: text => do
    let _ ← readWord ['u', 'l', 'l'] text
    return .null
  | 't' :: text => do
    let _ ← readWord ['r', 'u', 'e'] text
    return .flag true
  | 'f' :: text => do
    let _ ← readWord ['a', 'l', 's', 'e'] text
    return .flag false
  | '"' :: text => do
    let (value, _) ← readString true text
    return .text (String.ofList value)
  | '[' :: _ => .ok .list
  | '{' :: _ => .ok .object
  | c :: text =>
    if c = '-' ∨ c.isDigit then do
      let (value, _) ← readNumber (c :: text)
      return .number value
    else .error .malformed

/-- The fault of a text that holds something else than what is expected. -/
def unexpected (expected : Expected) (text : List Char) : ReadFault :=
  match readFound text with
  | .error fault => fault
  | .ok found => .mismatch (.wrongKind found expected)

/-- Reads a number where an expected one is a natural number below `bound`. -/
def readNatural (expected : Expected) (bound : Nat) (text : List Char) : Scanned Nat :=
  match skipBlanks text with
  | [] => .error .endsEarly
  | c :: text =>
    if c = '-' ∨ c.isDigit then
      match readNumber (c :: text) with
      | .error fault => .error fault
      | .ok (.natural n, rest) =>
        if n < bound then .ok (n, rest) else .error (.mismatch (.outOfRange n expected))
      | .ok (.minus n, _) => .error (.mismatch (.outOfRange (-(n : Int)) expected))
      | .ok (.float value, _) =>
        .error (.mismatch (.wrongKind (.number (.float value)) expected))
    else .error (unexpected expected (c :: text))

theorem length_readNatural_lt {expected : Expected} {bound n : Nat} {text rest : List Char}
    (h : readNatural expected bound text = .ok (n, rest)) : rest.length < text.length := by
  unfold readNatural at h
  split at h
  · simp at h
  · next hs =>
    have hlt := length_lt_of_skipBlanks hs
    split at h
    · split at h
      · simp at h
      · next hn =>
        have := length_readNumber_lt hn
        simp only [List.length_cons] at this
        split at h
        · simp only [Except.ok.injEq, Prod.mk.injEq] at h
          rw [← h.2]
          omega
        · simp at h
      · simp at h
      · simp at h
    · simp at h

/-- A size of 64 bits. -/
def size : Reader Nat where
  run := readNatural .size (Nat.pow 2 64)
  shorter := length_readNatural_lt

def byte : Reader UInt8 :=
  Reader.map UInt8.ofNat
    { run := readNatural .byte 256
      shorter := length_readNatural_lt }

def readFlag (text : List Char) : Scanned Bool :=
  match skipBlanks text with
  | [] => .error .endsEarly
  | 't' :: text =>
    match readWord ['r', 'u', 'e'] text with
    | .error fault => .error fault
    | .ok rest => .ok (true, rest)
  | 'f' :: text =>
    match readWord ['a', 'l', 's', 'e'] text with
    | .error fault => .error fault
    | .ok rest => .ok (false, rest)
  | text => .error (unexpected .flag text)

theorem length_readFlag_lt {text rest : List Char} {value : Bool}
    (h : readFlag text = .ok (value, rest)) : rest.length < text.length := by
  unfold readFlag at h
  split at h
  · simp at h
  · next hs =>
    have := length_lt_of_skipBlanks hs
    split at h
    · simp at h
    · next hw =>
      have := length_readWord_le hw
      simp only [Except.ok.injEq, Prod.mk.injEq] at h
      rw [← h.2]
      omega
  · next hs =>
    have := length_lt_of_skipBlanks hs
    split at h
    · simp at h
    · next hw =>
      have := length_readWord_le hw
      simp only [Except.ok.injEq, Prod.mk.injEq] at h
      rw [← h.2]
      omega
  · simp at h

def flag : Reader Bool where
  run := readFlag
  shorter := length_readFlag_lt

/-- Reads the rest of a list after one of its items. -/
def readItems {α : Type} (item : Reader α) (text : List Char) : Scanned (List α) :=
  match _blanks : skipBlanks text with
  | ']' :: rest => .ok ([], rest)
  | ',' :: rest =>
    match _item : item.run rest with
    | .error fault => .error fault
    | .ok (value, rest) =>
      match readItems item rest with
      | .error fault => .error fault
      | .ok (values, rest) => .ok (value :: values, rest)
  | text => .error (stopsAt text)
termination_by text.length
decreasing_by
  have := length_lt_of_skipBlanks _blanks
  have := item.shorter _item
  omega

theorem length_readItems_lt {α : Type} {item : Reader α} {text rest : List Char} {values : List α}
    (h : readItems item text = .ok (values, rest)) : rest.length < text.length := by
  fun_induction readItems item text generalizing values rest with
  | case1 text left blanks =>
    simp only [Except.ok.injEq, Prod.mk.injEq] at h
    exact h.2 ▸ length_lt_of_skipBlanks blanks
  | case2 => simp at h
  | case3 => simp at h
  | case4 text more blanks value left hitem items last hitems ih =>
    have := length_lt_of_skipBlanks blanks
    have := item.shorter hitem
    have := ih hitems
    simp only [Except.ok.injEq, Prod.mk.injEq] at h
    rw [← h.2]
    omega
  | case5 => simp at h

def readList {α : Type} (item : Reader α) (text : List Char) : Scanned (List α) :=
  match skipBlanks text with
  | [] => .error .endsEarly
  | '[' :: text =>
    match skipBlanks text with
    | [] => .error .endsEarly
    | ']' :: rest => .ok ([], rest)
    | text =>
      match item.run text with
      | .error fault => .error fault
      | .ok (value, rest) =>
        match readItems item rest with
        | .error fault => .error fault
        | .ok (values, rest) => .ok (value :: values, rest)
  | text => .error (unexpected .list text)

theorem length_readList_lt {α : Type} {item : Reader α} {text rest : List Char} {values : List α}
    (h : readList item text = .ok (values, rest)) : rest.length < text.length := by
  unfold readList at h
  split at h
  · simp at h
  · next left hs =>
    have := length_lt_of_skipBlanks hs
    split at h
    · simp at h
    · next ht =>
      have := length_lt_of_skipBlanks ht
      simp only [Except.ok.injEq, Prod.mk.injEq] at h
      rw [← h.2]
      omega
    · have := length_skipBlanks_le left
      split at h
      · simp at h
      · next hi =>
        have := item.shorter hi
        split at h
        · simp at h
        · next hr =>
          have := length_readItems_lt hr
          simp only [Except.ok.injEq, Prod.mk.injEq] at h
          rw [← h.2]
          omega
  · simp at h

def list {α : Type} (item : Reader α) : Reader (List α) where
  run := readList item
  shorter := length_readList_lt

end CyclicQueue.Json
