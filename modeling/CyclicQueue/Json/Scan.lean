import CyclicQueue.Json.ReadFault

/-!
# The smallest parts of a text: blanks, words and strings

Every reader takes what it reads from the front of a text and hands on the rest, which is shorter.
-/

namespace CyclicQueue.Json

/-- The result of reading from the front of a text, with the rest of the text. -/
abbrev Scanned (α : Type) :=
  Except ReadFault (α × List Char)

/-- The fault of a text that does not go on as it has to. -/
def stopsAt (text : List Char) : ReadFault :=
  if text.isEmpty then .endsEarly else .malformed

/-! ## Blanks and words -/

def isBlank (c : Char) : Bool :=
  c == ' ' || c == '\n' || c == '\t' || c == '\r'

/-- The text from its first character on that is not blank. -/
def skipBlanks (text : List Char) : List Char :=
  text.dropWhile isBlank

theorem length_skipBlanks_le (text : List Char) : (skipBlanks text).length ≤ text.length :=
  (List.dropWhile_sublist _).length_le

theorem length_lt_of_skipBlanks {text rest : List Char} {c : Char}
    (h : skipBlanks text = c :: rest) : rest.length < text.length := by
  have := length_skipBlanks_le text
  rw [h] at this
  exact this

def readWord : List Char → List Char → Except ReadFault (List Char)
  | [], text => .ok text
  | _ :: _, [] => .error .endsEarly
  | c :: word, d :: text => if c = d then readWord word text else .error .malformed

theorem length_readWord_le {word text rest : List Char} (h : readWord word text = .ok rest) :
    rest.length ≤ text.length := by
  fun_induction readWord word text with
  | case1 => simp_all
  | case2 => simp at h
  | case3 c word text ih =>
    have := ih h
    simp only [List.length_cons]
    omega
  | case4 => simp at h

/-! ## Strings -/

/-- The value of a hexadecimal digit, of either case. -/
def hexValue? (c : Char) : Option Nat :=
  if '0' ≤ c ∧ c ≤ '9' then some (c.toNat - 48)
  else if 'a' ≤ c ∧ c ≤ 'f' then some (c.toNat - 87)
  else if 'A' ≤ c ∧ c ≤ 'F' then some (c.toNat - 55)
  else none

/-- Reads a number of sixteen bits in four hexadecimal digits. A text of less than four bytes ends
early, whatever they are. -/
def readUnit : List Char → Scanned Nat
  | a :: b :: c :: d :: rest =>
    match hexValue? a, hexValue? b, hexValue? c, hexValue? d with
    | some a, some b, some c, some d => .ok (((a * 16 + b) * 16 + c) * 16 + d, rest)
    | _, _, _, _ => .error .malformed
  | text =>
    .error (if text.foldl (fun size c => size + c.utf8Size) 0 < 4 then .endsEarly else .malformed)

theorem length_readUnit_lt {text rest : List Char} {unit : Nat}
    (h : readUnit text = .ok (unit, rest)) : rest.length < text.length := by
  unfold readUnit at h
  split at h
  · split at h
    · simp only [Except.ok.injEq, Prod.mk.injEq] at h
      simp only [List.length_cons, ← h.2]
      omega
    · simp at h
  · simp at h

/-- The character that a backslash and a letter or sign stand for. -/
def plainEscape? : Char → Option Char
  | '"' => some '"'
  | '\\' => some '\\'
  | '/' => some '/'
  | 'b' => some '\x08'
  | 'f' => some '\x0c'
  | 'n' => some '\n'
  | 'r' => some '\r'
  | 't' => some '\t'
  | _ => none

def ofPair (high low : Nat) : Char :=
  Char.ofNat (0x10000 + (high - 0xD800) * 0x400 + (low - 0xDC00))

/-- Reads what follows the first unit of a pair: a backslash, a `u` and the second unit. -/
def readSecondUnit (high : Nat) : List Char → Scanned Char
  | '\\' :: 'u' :: text =>
    match readUnit text with
    | .error fault => .error fault
    | .ok (low, rest) =>
      if low < 0xDC00 ∨ 0xE000 ≤ low then .error .malformed else .ok (ofPair high low, rest)
  | ['\\'] => .error .endsEarly
  | text => .error (stopsAt text)

/-- Reads what follows a backslash. The units from D800 to DFFF come in pairs; in a string whose
value is not needed they may stand alone. -/
def readEscape (valued : Bool) : List Char → Scanned Char
  | [] => .error .endsEarly
  | 'u' :: text =>
    match readUnit text with
    | .error fault => .error fault
    | .ok (unit, rest) =>
      if unit < 0xD800 ∨ 0xE000 ≤ unit ∨ !valued then .ok (Char.ofNat unit, rest)
      else if 0xDC00 ≤ unit then .error .malformed
      else readSecondUnit unit rest
  | c :: text =>
    match plainEscape? c with
    | some escaped => .ok (escaped, text)
    | none => .error .malformed

theorem length_readSecondUnit_lt {high : Nat} {text rest : List Char} {c : Char}
    (h : readSecondUnit high text = .ok (c, rest)) : rest.length < text.length := by
  unfold readSecondUnit at h
  split at h
  · split at h
    · simp at h
    · next hu =>
      split at h
      · simp at h
      · have := length_readUnit_lt hu
        simp only [Except.ok.injEq, Prod.mk.injEq] at h
        simp only [List.length_cons, ← h.2]
        omega
  · simp at h
  · simp at h

theorem length_readEscape_lt {valued : Bool} {text rest : List Char} {c : Char}
    (h : readEscape valued text = .ok (c, rest)) : rest.length < text.length := by
  unfold readEscape at h
  split at h
  · simp at h
  · split at h
    · simp at h
    · next hu =>
      have hlt := length_readUnit_lt hu
      split at h
      · simp only [Except.ok.injEq, Prod.mk.injEq] at h
        simp only [List.length_cons, ← h.2]
        omega
      · split at h
        · simp at h
        · have := length_readSecondUnit_lt h
          simp only [List.length_cons]
          omega
  · split at h
    · simp only [Except.ok.injEq, Prod.mk.injEq] at h
      simp [← h.2]
    · simp at h

/-- Reads a string from after its opening quote up to and with its closing quote. -/
def readString (valued : Bool) (text : List Char) : Scanned (List Char) :=
  match text with
  | [] => .error .endsEarly
  | '"' :: rest => .ok ([], rest)
  | '\\' :: rest =>
    match _h : readEscape valued rest with
    | .error fault => .error fault
    | .ok (c, rest) =>
      match readString valued rest with
      | .error fault => .error fault
      | .ok (cs, rest) => .ok (c :: cs, rest)
  | c :: rest =>
    if c.toNat < 32 then .error .malformed
    else
      match readString valued rest with
      | .error fault => .error fault
      | .ok (cs, rest) => .ok (c :: cs, rest)
termination_by text.length
decreasing_by
  · have := length_readEscape_lt _h
    simp only [List.length_cons]
    omega
  · simp

theorem length_readString_lt {valued : Bool} {text rest cs : List Char}
    (h : readString valued text = .ok (cs, rest)) : rest.length < text.length := by
  fun_induction readString valued text generalizing cs rest with
  | case1 => simp at h
  | case2 => simp_all
  | case3 => simp at h
  | case4 => simp_all
  | case5 text c _ escape ds _ read ih =>
    have hlt := length_readEscape_lt escape
    have := ih read
    simp only [Except.ok.injEq, Prod.mk.injEq] at h
    simp only [List.length_cons, ← h.2]
    omega
  | case6 => simp at h
  | case7 => simp_all
  | case8 c text _ _ _ ds _ read ih =>
    have := ih read
    simp only [Except.ok.injEq, Prod.mk.injEq] at h
    simp only [List.length_cons, ← h.2]
    omega

end CyclicQueue.Json
