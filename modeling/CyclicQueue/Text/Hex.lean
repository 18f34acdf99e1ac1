/-!
# Bytes as pairs of hexadecimal digits

A byte is written as two uppercase digits, the high one first. Reading the pairs back gives the
bytes, and no other text is read as them. All pairs are equally long, so a stretch of the bytes is
written as a stretch of the digits.
-/

namespace CyclicQueue.Text.Hex

def digit (value : Nat) : Char :=
  Char.ofNat (if value < 10 then 48 + value else 55 + value)

/-- The value of an uppercase digit. -/
def value? (c : Char) : Option Nat :=
  if '0' ≤ c ∧ c ≤ '9' then some (c.toNat - 48)
  else if 'A' ≤ c ∧ c ≤ 'F' then some (c.toNat - 55)
  else none

/-- The two digits of a byte. -/
def pair (byte : UInt8) : Char × Char :=
  (digit (byte.toNat / 16), digit (byte.toNat % 16))

/-- Writes the digits of a byte after `text`. -/
def push (text : String) (byte : UInt8) : String :=
  (text.push (pair byte).1).push (pair byte).2

/-- Writes the digits of all bytes after `text`. -/
def append (text : String) (bytes : List UInt8) : String :=
  bytes.foldl push text

def encode (bytes : List UInt8) : List Char :=
  bytes.flatMap fun byte => [(pair byte).1, (pair byte).2]

/-- Reads two digits at a time, the high one first. -/
def decode? : List Char → Option (List UInt8)
  | [] => some []
  | [_] => none
  | high :: low :: rest => do
    let high ← value? high
    let low ← value? low
    let bytes ← decode? rest
    return UInt8.ofNat (16 * high + low) :: bytes

theorem value?_digit {value : Nat} (h : value < 16) : value? (digit value) = some value := by
  revert value
  decide

theorem value?_eq_some_iff {c : Char} {value : Nat} :
    value? c = some value ↔ value < 16 ∧ c = digit value := by
  constructor
  · intro h
    unfold value? at h
    split at h
    · next hdigit =>
      cases h
      simp only [Char.le_def, UInt32.le_iff_toNat_le] at hdigit
      obtain ⟨hlow, hhigh⟩ := hdigit
      change 48 ≤ c.toNat at hlow
      change c.toNat ≤ 57 at hhigh
      refine ⟨by omega, ?_⟩
      rw [digit, if_pos (by omega), Nat.add_sub_cancel' hlow, Char.ofNat_toNat]
    · split at h
      · next hletter =>
        cases h
        simp only [Char.le_def, UInt32.le_iff_toNat_le] at hletter
        obtain ⟨hlow, hhigh⟩ := hletter
        change 65 ≤ c.toNat at hlow
        change c.toNat ≤ 70 at hhigh
        refine ⟨by omega, ?_⟩
        rw [digit, if_neg (by omega), Nat.add_sub_cancel' (by omega), Char.ofNat_toNat]
      · cases h
  · rintro ⟨hvalue, rfl⟩
    exact value?_digit hvalue

/-! ## Writing -/

theorem toList_push (text : String) (byte : UInt8) :
    (push text byte).toList = text.toList ++ [(pair byte).1, (pair byte).2] := by
  simp [push]

theorem toList_append (text : String) (bytes : List UInt8) :
    (append text bytes).toList = text.toList ++ encode bytes := by
  induction bytes generalizing text with
  | nil => simp [append, encode]
  | cons byte bytes ih =>
    have := ih (push text byte)
    simp only [append, List.foldl_cons] at this ⊢
    rw [this, toList_push]
    simp [encode]

theorem append_eq (text : String) (bytes : List UInt8) :
    append text bytes = text ++ String.ofList (encode bytes) := by
  apply String.toList_injective
  rw [toList_append, String.toList_append, String.toList_ofList]

theorem append_empty (bytes : List UInt8) : append "" bytes = String.ofList (encode bytes) := by
  rw [append_eq, String.empty_append]

theorem encode_cons (byte : UInt8) (bytes : List UInt8) :
    encode (byte :: bytes) = (pair byte).1 :: (pair byte).2 :: encode bytes :=
  rfl

theorem length_encode (bytes : List UInt8) : (encode bytes).length = 2 * bytes.length := by
  induction bytes with
  | nil => rfl
  | cons byte bytes ih =>
    rw [encode_cons, List.length_cons, List.length_cons, List.length_cons, ih]
    omega

theorem encode_append (first second : List UInt8) :
    encode (first ++ second) = encode first ++ encode second :=
  List.flatMap_append

theorem encode_drop (bytes : List UInt8) (count : Nat) :
    encode (bytes.drop count) = (encode bytes).drop (2 * count) := by
  induction count generalizing bytes with
  | zero => rfl
  | succ count ih =>
    cases bytes with
    | nil => rfl
    | cons byte bytes => exact ih bytes

theorem encode_take (bytes : List UInt8) (count : Nat) :
    encode (bytes.take count) = (encode bytes).take (2 * count) := by
  induction count generalizing bytes with
  | zero => rfl
  | succ count ih =>
    cases bytes with
    | nil => rfl
    | cons byte bytes => exact congrArg ([(pair byte).1, (pair byte).2] ++ ·) (ih bytes)

/-! ## Reading -/

theorem decode?_pair (byte : UInt8) (rest : List Char) :
    decode? ((pair byte).1 :: (pair byte).2 :: rest) = (decode? rest).map (byte :: ·) := by
  have hb := byte.toNat_lt
  have hv : UInt8.ofNat (16 * (byte.toNat / 16) + byte.toNat % 16) = byte := by
    rw [Nat.div_add_mod, UInt8.ofNat_toNat]
  simp only [decode?, pair, value?_digit (show byte.toNat / 16 < 16 by omega),
    value?_digit (Nat.mod_lt byte.toNat (by decide : 0 < 16)), Option.bind_eq_bind,
    Option.bind_some, hv]
  cases decode? rest <;> rfl

theorem decode?_encode (bytes : List UInt8) : decode? (encode bytes) = some bytes := by
  induction bytes with
  | nil => rfl
  | cons byte bytes ih => rw [encode_cons, decode?_pair, ih, Option.map_some]

theorem pair_ofNat {high low : Nat} (hhigh : high < 16) (hlow : low < 16) :
    pair (UInt8.ofNat (16 * high + low)) = (digit high, digit low) := by
  have hbyte : (UInt8.ofNat (16 * high + low)).toNat = 16 * high + low :=
    UInt8.toNat_ofNat_of_lt' (show 16 * high + low < 256 by omega)
  rw [pair, hbyte, show (16 * high + low) / 16 = high by omega,
    show (16 * high + low) % 16 = low by omega]

theorem eq_encode_of_decode? {text : List Char} {bytes : List UInt8}
    (h : decode? text = some bytes) : text = encode bytes := by
  fun_induction decode? text generalizing bytes with
  | case1 =>
    cases h
    rfl
  | case2 => cases h
  | case3 high low rest ih =>
    simp only [Option.bind_eq_bind, Option.bind_eq_some_iff, Option.pure_def, Option.some.injEq,
      value?_eq_some_iff] at h
    obtain ⟨high, ⟨hhigh, rfl⟩, low, ⟨hlow, rfl⟩, bytes, hrest, rfl⟩ := h
    rw [encode_cons, pair_ofNat hhigh hlow, ← ih hrest]

theorem decode?_eq_some_iff {text : List Char} {bytes : List UInt8} :
    decode? text = some bytes ↔ text = encode bytes := by
  refine ⟨eq_encode_of_decode?, ?_⟩
  rintro rfl
  exact decode?_encode bytes

theorem encode_injective : Function.Injective encode := by
  intro bytes bytes' h
  have hread := decode?_encode bytes
  rw [h, decode?_encode] at hread
  exact (Option.some.inj hread).symm

end CyclicQueue.Text.Hex
