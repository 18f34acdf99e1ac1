import CyclicQueue.Trial.Action

/-!
# Bytes read as a trial

Reading goes from the front, and every byte past the end is 0. A list goes on as long as an odd
byte comes before its next item, so it ends at the latest with the bytes.
-/

namespace CyclicQueue.Trial

/-- What is read from the front of bytes, with the rest. -/
abbrev Decoded (α : Type) :=
  α × List UInt8

def decodeByte : List UInt8 → Decoded UInt8
  | [] => (0, [])
  | byte :: rest => (byte, rest)

/-- Reads a number of 32 bits, its lowest byte first. -/
def decodeWord (bytes : List UInt8) : Decoded Nat :=
  let (a, bytes) := decodeByte bytes
  let (b, bytes) := decodeByte bytes
  let (c, bytes) := decodeByte bytes
  let (d, bytes) := decodeByte bytes
  (((d.toNat * 256 + c.toNat) * 256 + b.toNat) * 256 + a.toNat, bytes)

/-- Reads one of the numbers below `count`, each from an equal share of the words. -/
def decodeChoice (count : Nat) (bytes : List UInt8) : Decoded Nat :=
  let (word, bytes) := decodeWord bytes
  (word * count / Nat.pow 2 32, bytes)

def decodeBytes : List UInt8 → Decoded (List UInt8)
  | [] => ([], [])
  | [flag] => (if flag % 2 = 0 then [] else [0], [])
  | flag :: byte :: rest =>
    if flag % 2 = 0 then ([], byte :: rest)
    else
      let (items, rest) := decodeBytes rest
      (byte :: items, rest)

/-- Reads an action of the given kind, in the order in which the kinds are declared. -/
def decodeKind (kind : Nat) (bytes : List UInt8) : Decoded Action :=
  match kind with
  | 0 =>
    let (byte, bytes) := decodeByte bytes
    (.push byte, bytes)
  | 1 =>
    let (items, bytes) := decodeBytes bytes
    let (offset, bytes) := decodeByte bytes
    let (length, bytes) := decodeByte bytes
    (.pushRange items offset length, bytes)
  | 2 => (.pop, bytes)
  | 3 =>
    let (count, bytes) := decodeByte bytes
    (.take count, bytes)
  | 4 =>
    let (count, bytes) := decodeByte bytes
    (.discard count, bytes)
  | 5 =>
    let (index, bytes) := decodeByte bytes
    (.get index, bytes)
  | 6 =>
    let (needle, bytes) := decodeBytes bytes
    let (start, bytes) := decodeByte bytes
    (.find needle start, bytes)
  | 7 =>
    let (needle, bytes) := decodeBytes bytes
    (.occurrences needle, bytes)
  | 8 =>
    let (items, bytes) := decodeBytes bytes
    (.startsWith items, bytes)
  | 9 =>
    let (items, bytes) := decodeBytes bytes
    (.endsWith items, bytes)
  | 10 =>
    let (offset, bytes) := decodeByte bytes
    let (length, bytes) := decodeByte bytes
    let (targetSize, bytes) := decodeByte bytes
    let (targetOffset, bytes) := decodeByte bytes
    (.copyTo offset length targetSize targetOffset, bytes)
  | 11 =>
    let (offset, bytes) := decodeByte bytes
    let (length, bytes) := decodeByte bytes
    let (extra, bytes) := decodeByte bytes
    (.copyRange offset length extra, bytes)
  | _ => (.clear, bytes)

def kinds : Nat := 13

def decodeAction (bytes : List UInt8) : Decoded Action :=
  let (kind, bytes) := decodeChoice kinds bytes
  decodeKind kind bytes

theorem length_decodeByte_le (bytes : List UInt8) :
    (decodeByte bytes).2.length ≤ bytes.length := by
  cases bytes <;> simp [decodeByte]

theorem length_decodeChoice_le (count : Nat) (bytes : List UInt8) :
    (decodeChoice count bytes).2.length ≤ bytes.length :=
  calc
    _ ≤ _ := length_decodeByte_le _
    _ ≤ _ := length_decodeByte_le _
    _ ≤ _ := length_decodeByte_le _
    _ ≤ _ := length_decodeByte_le _

theorem length_decodeBytes_le (bytes : List UInt8) :
    (decodeBytes bytes).2.length ≤ bytes.length := by
  fun_induction decodeBytes bytes with
  | case1 => simp
  | case2 => simp
  | case3 => simp
  | case4 flag byte rest _ items left hrest ih =>
    rw [hrest] at ih
    simp only [List.length_cons] at ih ⊢
    omega

theorem length_decodeKind_le (kind : Nat) (bytes : List UInt8) :
    (decodeKind kind bytes).2.length ≤ bytes.length := by
  have hbyte := length_decodeByte_le
  have hbytes := length_decodeBytes_le bytes
  unfold decodeKind
  split
  · exact hbyte _
  · exact Nat.le_trans (hbyte _) (Nat.le_trans (hbyte _) hbytes)
  · exact Nat.le_refl _
  · exact hbyte _
  · exact hbyte _
  · exact hbyte _
  · exact Nat.le_trans (hbyte _) hbytes
  · exact hbytes
  · exact hbytes
  · exact hbytes
  · exact Nat.le_trans (hbyte _) (Nat.le_trans (hbyte _) (Nat.le_trans (hbyte _) (hbyte _)))
  · exact Nat.le_trans (hbyte _) (Nat.le_trans (hbyte _) (hbyte _))
  · exact Nat.le_refl _

theorem length_decodeAction_le (bytes : List UInt8) :
    (decodeAction bytes).2.length ≤ bytes.length :=
  Nat.le_trans (length_decodeKind_le ..) (length_decodeChoice_le kinds bytes)

def decodeActions : List UInt8 → Decoded (List Action)
  | [] => ([], [])
  | flag :: bytes =>
    if flag % 2 = 0 then ([], bytes)
    else
      let action := decodeAction bytes
      let (actions, rest) := decodeActions action.2
      (action.1 :: actions, rest)
termination_by bytes => bytes.length
decreasing_by exact Nat.lt_succ_of_le (length_decodeAction_le bytes)

/-- Reads a trial. No bytes at all are no trial; bytes left over do not count. -/
def Plan.ofBytes? (bytes : List UInt8) : Option Plan :=
  if bytes.isEmpty then none
  else
    let (capacity, bytes) := decodeByte bytes
    some { capacity, actions := (decodeActions bytes).1 }

end CyclicQueue.Trial
