import CyclicQueue.ByteRing.Update

/-!
# What the changes do to the contents

A stretch of the contents is read off the storage slot by slot, so an added byte lands behind the
contents and a removed one leaves from their front. Every change keeps the cursors and the length
of a valid ring fitting together.
-/

namespace CyclicQueue.ByteRing

/-! ## Reading slot by slot -/

theorem getElem?_stretch (ring : ByteRing) (start count i : Nat) :
    (ring.stretch start count)[i]? = if i < count then ring.storage[start + i]? else none := by
  rw [stretch, Array.getElem?_toList, Array.getElem?_extract]
  by_cases hi : i < count
  · by_cases hs : start + i < ring.storage.size
    · rw [if_pos (by omega), if_pos hi]
    · rw [if_neg (by omega), if_pos hi, Array.getElem?_eq_none (by omega)]
  · rw [if_neg (by omega), if_neg hi]

theorem length_stretch {ring : ByteRing} {start count : Nat}
    (h : start + count ≤ ring.storage.size) : (ring.stretch start count).length = count := by
  rw [stretch, Array.length_toList, Array.size_extract]
  omega

theorem slot_lt {ring : ByteRing} (h : 0 < ring.storage.size) (index : Nat) :
    ring.slot index < ring.storage.size :=
  Cursor.forward_lt h _ _

theorem slot_add (ring : ByteRing) (offset index : Nat) :
    ring.slot (offset + index) = Cursor.forward ring.storage.size (ring.slot offset) index :=
  (Cursor.forward_forward ..).symm

/-- The head of a stretch ends with the stretch or with the storage. -/
theorem length_head_runs {ring : ByteRing} (offset length : Nat) (hpos : 0 < ring.storage.size) :
    (ring.runs offset length).head.length =
      min length (ring.storage.size - ring.slot offset) := by
  have hslot := slot_lt hpos offset
  unfold runs
  simp only
  split
  · rw [length_stretch (by omega)]
    omega
  · rw [length_stretch (by omega)]
    omega

theorem length_tail_runs {ring : ByteRing} {offset length : Nat} (hpos : 0 < ring.storage.size)
    (h : length ≤ ring.storage.size) :
    (ring.runs offset length).tail.length =
      length - (ring.storage.size - ring.slot offset) := by
  have hslot := slot_lt hpos offset
  unfold runs
  simp only
  split
  · rw [List.length_nil]
    omega
  · rw [length_stretch (by omega)]

/-- A stretch of the contents holds the bytes of the slots that follow the read cursor. -/
theorem getElem?_range {ring : ByteRing} {offset length : Nat} (hpos : 0 < ring.storage.size)
    (h : length ≤ ring.storage.size) (i : Nat) :
    (ring.range offset length)[i]? =
      if i < length then ring.storage[ring.slot (offset + i)]? else none := by
  have hslot := slot_lt hpos offset
  rw [slot_add, range, Runs.bytes, runs]
  split
  · rw [List.append_nil, getElem?_stretch]
    by_cases hi : i < length
    · rw [if_pos hi, if_pos hi, Cursor.forward_eq_add (by omega)]
    · rw [if_neg hi, if_neg hi]
  · rw [List.getElem?_append, length_stretch (by omega), getElem?_stretch, getElem?_stretch]
    by_cases hroom : i < ring.storage.size - ring.slot offset
    · rw [if_pos hroom, if_pos hroom, if_pos (by omega), Cursor.forward_eq_add (by omega)]
    · rw [if_neg hroom]
      by_cases hi : i < length
      · rw [if_pos (by omega), if_pos hi, Cursor.forward_eq_sub (by omega) (by omega)]
        congr 1
        omega
      · rw [if_neg (by omega), if_neg hi]

namespace Valid

variable {ring : ByteRing}

theorem size_pos (h : ring.Valid) : 0 < ring.storage.size := by
  have := h.two_le_size
  omega

theorem size_eq (h : ring.Valid) : ring.storage.size = ring.capacity + 1 := by
  have := h.two_le_size
  rw [capacity]
  omega

theorem len_lt (h : ring.Valid) : ring.len < ring.storage.size := by
  have := h.len_le
  have := h.size_eq
  omega

theorem writePos_lt (h : ring.Valid) : ring.writePos < ring.storage.size := by
  rw [h.writePos_eq]
  exact Cursor.forward_lt h.size_pos _ _

theorem getElem?_toList (h : ring.Valid) (i : Nat) :
    ring.toList[i]? = if i < ring.len then ring.storage[ring.slot i]? else none := by
  have hlen := h.len_lt
  rw [toList, getElem?_range h.size_pos (by omega), Nat.zero_add]

theorem length_toList (h : ring.Valid) : ring.toList.length = ring.len := by
  have hlen := h.len_lt
  rw [toList, range, Runs.bytes, List.length_append, length_head_runs _ _ h.size_pos,
    length_tail_runs h.size_pos (by omega)]
  omega

/-- A stretch inside the contents is that part of them. -/
theorem range_eq (h : ring.Valid) {offset length : Nat} (hl : offset + length ≤ ring.len) :
    ring.range offset length = (ring.toList.drop offset).take length := by
  have hlen := h.len_lt
  apply List.ext_getElem?
  intro i
  rw [getElem?_range h.size_pos (by omega), List.getElem?_take, List.getElem?_drop,
    h.getElem?_toList]
  by_cases hi : i < length
  · rw [if_pos hi, if_pos hi, if_pos (by omega)]
  · rw [if_neg hi, if_neg hi]

theorem toList_eq_nil_iff (h : ring.Valid) : ring.toList = [] ↔ ring.len = 0 := by
  rw [← List.length_eq_zero_iff, h.length_toList]

end Valid

/-! ## Adding -/

theorem getElem?_writeRun (storage : Array UInt8) (start : Nat) (bytes : List UInt8) (j : Nat) :
    (writeRun storage start bytes)[j]? =
      if start ≤ j ∧ j < start + bytes.length ∧ j < storage.size then bytes[j - start]?
      else storage[j]? := by
  induction bytes generalizing storage start with
  | nil =>
    rw [if_neg (by simp only [List.length_nil]; omega)]
    rfl
  | cons byte bytes ih =>
    rw [writeRun, ih, Array.size_setIfInBounds, Array.getElem?_setIfInBounds]
    simp only [List.length_cons]
    by_cases hj : start = j
    · subst hj
      rw [if_neg (by omega), if_pos rfl]
      by_cases hs : start < storage.size
      · rw [if_pos hs, if_pos (by omega), Nat.sub_self, List.getElem?_cons_zero]
      · rw [if_neg hs, if_neg (by omega), Array.getElem?_eq_none (by omega)]
    · rw [if_neg hj]
      by_cases hin : start + 1 ≤ j ∧ j < start + 1 + bytes.length ∧ j < storage.size
      · rw [if_pos hin, if_pos (by omega), show j - start = j - (start + 1) + 1 by omega,
          List.getElem?_cons_succ]
      · rw [if_neg hin, if_neg (by omega)]

@[simp] theorem size_storage_append (ring : ByteRing) (bytes : List UInt8) :
    (ring.append bytes).storage.size = ring.storage.size := by
  simp [append]

/-- The slots from the write cursor on hold the added bytes. -/
theorem storage_append_written {ring : ByteRing} {bytes : List UInt8} {k : Nat}
    (hw : ring.writePos < ring.storage.size) (hb : bytes.length ≤ ring.storage.size)
    (hk : k < bytes.length) :
    (ring.append bytes).storage[Cursor.forward ring.storage.size ring.writePos k]? =
      bytes[k]? := by
  simp only [append, getElem?_writeRun, size_writeRun, List.length_take, List.length_drop,
    List.getElem?_take, List.getElem?_drop, Nat.zero_add, Nat.zero_le, true_and]
  rcases Nat.lt_or_ge (ring.writePos + k) ring.storage.size with hin | hout
  · rw [Cursor.forward_eq_add hin, if_neg (by omega), if_pos (by omega), if_pos (by omega)]
    congr 1
    omega
  · rw [Cursor.forward_eq_sub hout (by omega), if_pos (by omega)]
    congr 1
    omega

/-- A slot that is none of them keeps its byte. -/
theorem storage_append_other {ring : ByteRing} {bytes : List UInt8} {p : Nat}
    (hw : ring.writePos < ring.storage.size) (hp : p < ring.storage.size)
    (hother : ∀ k < bytes.length, Cursor.forward ring.storage.size ring.writePos k ≠ p) :
    (ring.append bytes).storage[p]? = ring.storage[p]? := by
  simp only [append, getElem?_writeRun, size_writeRun, List.length_take, List.length_drop,
    List.getElem?_take, List.getElem?_drop, Nat.zero_add, Nat.zero_le, true_and]
  rw [if_neg, if_neg]
  · intro hin
    refine hother (p - ring.writePos) (by omega) ?_
    rw [Cursor.forward_eq_add (by omega)]
    omega
  · intro hin
    refine hother (p + ring.storage.size - ring.writePos) (by omega) ?_
    rw [Cursor.forward_eq_sub (by omega) (by omega)]
    omega

theorem Valid.append {ring : ByteRing} (h : ring.Valid) {bytes : List UInt8}
    (hb : bytes.length ≤ ring.free) : (ring.append bytes).Valid := by
  have hlen := h.len_le
  have hcap : (ring.append bytes).capacity = ring.capacity := by
    rw [capacity, size_storage_append, capacity]
  refine ⟨?_, ?_, ?_, ?_⟩
  · rw [size_storage_append]
    exact h.two_le_size
  · rw [size_storage_append]
    exact h.readPos_lt
  · rw [hcap]
    simp only [ByteRing.append]
    unfold free at hb
    omega
  · rw [size_storage_append]
    simp only [ByteRing.append, h.writePos_eq, Cursor.forward_forward]

theorem Valid.toList_append {ring : ByteRing} (h : ring.Valid) {bytes : List UInt8}
    (hb : bytes.length ≤ ring.free) : (ring.append bytes).toList = ring.toList ++ bytes := by
  have hcap := h.size_eq
  have hlen := h.len_le
  have hfree : ring.free = ring.capacity - ring.len := rfl
  have hslot : ∀ k, (ring.append bytes).slot k = ring.slot k := by
    intro k
    rw [slot, size_storage_append]
    rfl
  apply List.ext_getElem?
  intro i
  rw [(h.append hb).getElem?_toList, List.getElem?_append, h.length_toList, hslot,
    show (ring.append bytes).len = ring.len + bytes.length from rfl]
  by_cases hi : i < ring.len
  · rw [if_pos (by omega), if_pos hi, h.getElem?_toList, if_pos hi]
    apply storage_append_other h.writePos_lt (slot_lt h.size_pos i)
    intro k hk heq
    rw [h.writePos_eq, Cursor.forward_forward] at heq
    have := Cursor.forward_injective h.readPos_lt (by omega) (by omega) heq
    omega
  · rw [if_neg hi]
    by_cases hk : i < ring.len + bytes.length
    · rw [if_pos hk, ← storage_append_written h.writePos_lt (by omega)
        (show i - ring.len < bytes.length by omega), h.writePos_eq, Cursor.forward_forward,
        show ring.len + (i - ring.len) = i by omega, slot]
    · rw [if_neg hk, List.getElem?_eq_none (by omega)]

/-- One byte is added as a list of one is. -/
theorem push_eq_append {ring : ByteRing} {byte : UInt8} (h : ring.Valid)
    (hf : ring.isFull = false) : ring.push byte = (.ok (), ring.append [byte]) := by
  have hw := h.writePos_lt
  have hroom : min 1 (ring.storage.size - ring.writePos) = 1 := by omega
  simp [push, hf, append, hroom, writeRun]

/-! ## Removing -/

theorem Valid.clear {ring : ByteRing} (h : ring.Valid) : ring.clear.Valid := by
  have hpos := h.size_pos
  refine ⟨h.two_le_size, hpos, Nat.zero_le _, ?_⟩
  exact (Cursor.forward_zero hpos).symm

theorem Valid.toList_clear {ring : ByteRing} (h : ring.Valid) : ring.clear.toList = [] :=
  h.clear.toList_eq_nil_iff.2 rfl

theorem Valid.advance {ring : ByteRing} (h : ring.Valid) {count : Nat} (hc : count ≤ ring.len) :
    (ring.advance count).Valid := by
  have hlen := h.len_le
  refine ⟨h.two_le_size, Cursor.forward_lt h.size_pos _ _, ?_, ?_⟩
  · exact Nat.le_trans (Nat.sub_le _ _) hlen
  · simp only [ByteRing.advance, h.writePos_eq, Cursor.forward_forward]
    congr 1
    omega

theorem Valid.toList_advance {ring : ByteRing} (h : ring.Valid) {count : Nat}
    (hc : count ≤ ring.len) : (ring.advance count).toList = ring.toList.drop count := by
  apply List.ext_getElem?
  intro i
  rw [(h.advance hc).getElem?_toList, List.getElem?_drop, h.getElem?_toList, slot_add ring count i,
    show (ring.advance count).len = ring.len - count from rfl]
  by_cases hi : i < ring.len - count
  · rw [if_pos hi, if_pos (by omega)]
    rfl
  · rw [if_neg hi, if_neg (by omega)]

theorem Valid.getD_slot {ring : ByteRing} (h : ring.Valid) {index : Nat} (hi : index < ring.len) :
    ring.toList[index]? = some (ring.storage.getD (ring.slot index) 0) := by
  have hs := slot_lt h.size_pos index
  rw [h.getElem?_toList, if_pos hi, Array.getD_eq_getD_getElem?, Array.getElem?_eq_getElem hs,
    Option.getD_some]

end CyclicQueue.ByteRing
