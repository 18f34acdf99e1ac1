import CyclicQueue.ByteRing.Guarded.Basic
import CyclicQueue.Proofs.ByteRing.Transitions

/-!
# No request to a ring is stopped

A valid ring whose storage is one block of the machine stays far below the largest word: twice the
storage is still a word. Every step of a request to such a ring is carried out, whatever numbers
the caller hands in, and gives what the request gives.
-/

namespace CyclicQueue.ByteRing

/-- A valid ring whose storage is one block of the machine. -/
structure Stored (ring : ByteRing) : Prop where
  valid : ring.Valid
  size_le : ring.storage.size ≤ Machine.blockLimit

/-- No request changes the size of the storage. -/
theorem Stored.of_leads {ring left : ByteRing} (h : ring.Stored) (hleads : ring.Leads left) :
    left.Stored where
  valid := hleads.valid h.valid
  size_le := by
    rw [hleads.size_eq]
    exact h.size_le

namespace Guarded

open Machine

variable {ring : ByteRing}

/-! ## Size and contents -/

theorem capacity_eq (h : ring.Stored) : capacity ring = .ok ring.capacity :=
  sub_eq h.valid.size_pos

theorem free_eq (h : ring.Stored) : free ring = .ok ring.free := by
  rw [free, capacity_eq h, ok_bind, sub_eq h.valid.len_le]
  rfl

theorem hasRoom_eq (h : ring.Stored) (count : Nat) :
    hasRoom ring count = .ok (ring.hasRoom count) := by
  rw [hasRoom, free_eq h]
  rfl

theorem isFull_eq (h : ring.Stored) : isFull ring = .ok ring.isFull := by
  rw [isFull, capacity_eq h]
  rfl

/-- Both pieces of a range that is held lie in the storage. -/
theorem runs_eq (h : ring.Stored) {offset length : Nat} (hend : offset + length ≤ ring.len) :
    runs ring offset length = .ok (ring.runs offset length) := by
  have hword := wordLimit_eq
  have hsize := h.size_le
  have hlen := h.valid.len_lt
  have hslot : ring.slot offset < ring.storage.size := slot_lt h.valid.size_pos offset
  have hstart : forward ring.storage.size ring.readPos offset = .ok (ring.slot offset) :=
    forward_eq h.valid.readPos_lt (by omega) hsize
  rw [runs, add_eq (by omega), ok_bind, require_eq (decide_eq_true hend), ok_bind, hstart, ok_bind,
    sub_eq (Nat.le_of_lt hslot), ok_bind]
  by_cases hroom : length ≤ ring.storage.size - ring.slot offset
  · rw [if_pos hroom, add_eq (by omega), ok_bind, view_eq (by omega) (by omega)]
    simp only [ByteRing.runs, if_pos hroom]
    rfl
  · rw [if_neg hroom, view_eq (by omega) (by omega), ok_bind, sub_eq (by omega), ok_bind,
      view_eq (by omega) (by omega)]
    have hwhole : ring.slot offset + (ring.storage.size - ring.slot offset) =
        ring.storage.size := by
      omega
    simp only [ByteRing.runs, if_neg hroom, stretch, hwhole, Nat.zero_add]
    rfl

theorem slices_eq (h : ring.Stored) : slices ring = .ok ring.slices :=
  runs_eq h (Nat.le_of_eq (Nat.zero_add _))

theorem toList_eq (h : ring.Stored) : toList ring = .ok ring.toList := by
  rw [toList, slices_eq h]
  rfl

theorem get_eq (h : ring.Stored) (index : Nat) : get ring index = .ok (ring.get index) := by
  have hword := wordLimit_eq
  have hsize := h.size_le
  have hcapacity := h.valid.size_eq
  have hlen := h.valid.len_lt
  rw [get, capacity_eq h, ok_bind, ByteRing.get]
  by_cases hindex : ring.capacity ≤ index
  · rw [if_pos hindex, if_pos hindex]
    rfl
  · rw [if_neg hindex, if_neg hindex]
    by_cases hheld : ring.len ≤ index
    · rw [if_pos hheld, if_pos hheld, add_eq (by omega)]
      rfl
    · have hslot : Cursor.forward ring.storage.size ring.readPos index < ring.storage.size :=
        slot_lt h.valid.size_pos index
      rw [if_neg hheld, if_neg hheld, forward_eq h.valid.readPos_lt (by omega) hsize, ok_bind,
        load_eq hslot]
      rfl

/-- A cursor that is no slot would stop the request. -/
example : get ⟨#[7, 8], 2, 0, 1⟩ 0 = .error .assertion := rfl

/-! ## Adding and removing -/

/-- A range whose end is no word ends behind every sequence there is. -/
theorem checkRange_eq {size : Nat} (hsize : size ≤ blockLimit) (offset length : Nat) :
    checkRange size offset length = CyclicQueue.checkRange size offset length := by
  have hword := wordLimit_eq
  unfold checkRange CyclicQueue.checkRange
  by_cases hoffset : offset ≠ 0 ∧ size ≤ offset
  · rw [if_pos hoffset, if_pos hoffset]
  · rw [if_neg hoffset, if_neg hoffset]
    cases hsum : sum? offset length with
    | none =>
      have hlarge := le_of_sum?_eq_none hsum
      rw [if_neg (by omega)]
    | some stop => rw [eq_of_sum? hsum]

theorem push_eq (h : ring.Stored) (byte : UInt8) : push ring byte = .ok (ring.push byte) := by
  have hword := wordLimit_eq
  have hsize := h.size_le
  have htwo := h.valid.two_le_size
  have hlen := h.valid.len_lt
  have hwrite := h.valid.writePos_lt
  rw [push, isFull_eq h, ok_bind, ByteRing.push]
  by_cases hfull : ring.isFull = true
  · rw [if_pos hfull, if_pos hfull]
    rfl
  · rw [if_neg hfull, if_neg hfull, store_eq hwrite, ok_bind,
      forward_eq hwrite (by omega) hsize, ok_bind, add_eq (by omega)]
    rfl

/-- Bytes that fit are copied in two pieces, neither of which leaves the storage. -/
theorem append_eq (h : ring.Stored) {bytes : List UInt8} (hfit : bytes.length ≤ ring.free) :
    append ring bytes = .ok (ring.append bytes) := by
  have hword := wordLimit_eq
  have hsize := h.size_le
  have hcapacity := h.valid.size_eq
  have hfree : ring.free = ring.capacity - ring.len := rfl
  have hlen := h.valid.len_le
  have hwrite := h.valid.writePos_lt
  rw [append, sub_eq (Nat.le_of_lt hwrite), ok_bind]
  dsimp only
  generalize hroom : min bytes.length (ring.storage.size - ring.writePos) = room
  have hhead : (bytes.take room).length = room := by
    rw [List.length_take]
    omega
  rw [add_eq (by omega), ok_bind, slice_zero (by omega), ok_bind,
    fill_eq (by omega) (by omega), ok_bind, sub_eq (by omega), ok_bind,
    slice_length (by omega), ok_bind,
    fill_eq (by rw [List.length_drop, Nat.zero_add]) (by rw [size_writeRun]; omega), ok_bind,
    forward_eq hwrite (by omega) hsize, ok_bind, add_eq (by omega)]
  simp only [ByteRing.append, hroom]
  rfl

theorem pushRange_eq (h : ring.Stored) {bytes : List UInt8} (hbytes : bytes.length ≤ blockLimit)
    (offset length : Nat) :
    pushRange ring bytes offset length = .ok (ring.pushRange bytes offset length) := by
  have hword := wordLimit_eq
  unfold pushRange ByteRing.pushRange
  rw [checkRange_eq hbytes]
  cases hrange : CyclicQueue.checkRange bytes.length offset length with
  | error fault => rfl
  | ok _ =>
    obtain ⟨-, hend⟩ := checkRange_eq_ok_iff.1 hrange
    simp only [free_eq h, ok_bind]
    by_cases hzero : length = 0
    · rw [if_pos hzero, if_pos hzero]
      rfl
    · rw [if_neg hzero, if_neg hzero]
      by_cases hlack : ring.free < length
      · rw [if_pos hlack, if_pos hlack]
        rfl
      · have hfit : ((bytes.drop offset).take length).length ≤ ring.free := by
          rw [List.length_take]
          omega
        rw [if_neg hlack, if_neg hlack, add_eq (by omega), ok_bind, slice_eq (by omega) hend,
          ok_bind, Nat.add_sub_cancel_left, append_eq h hfit]
        rfl

theorem pushSlice_eq (h : ring.Stored) {bytes : List UInt8} (hbytes : bytes.length ≤ blockLimit) :
    pushSlice ring bytes = .ok (ring.pushSlice bytes) :=
  pushRange_eq h hbytes 0 bytes.length

theorem advance_eq (h : ring.Stored) {count : Nat} (hcount : count ≤ ring.len) :
    advance ring count = .ok (ring.advance count) := by
  have hlen := h.valid.len_lt
  rw [advance, require_eq (decide_eq_true hcount), ok_bind,
    forward_eq h.valid.readPos_lt (by omega) h.size_le, ok_bind, sub_eq hcount]
  rfl

theorem pop_eq (h : ring.Stored) : pop ring = .ok ring.pop := by
  have htwo := h.valid.two_le_size
  rw [pop, ByteRing.pop]
  by_cases hempty : ring.isEmpty = true
  · rw [if_pos hempty, if_pos hempty]
    rfl
  · have hne : ring.len ≠ 0 := isEmpty_eq_false_iff.1 (Bool.eq_false_iff.2 hempty)
    rw [if_neg hempty, if_neg hempty, load_eq h.valid.readPos_lt, ok_bind,
      forward_eq h.valid.readPos_lt (by omega) h.size_le, ok_bind,
      sub_eq (Nat.one_le_iff_ne_zero.2 hne)]
    rfl

theorem checkCount_eq (h : ring.Stored) (count : Nat) :
    checkCount ring count = .ok (ring.checkCount count) := by
  rw [checkCount, capacity_eq h, ok_bind, ByteRing.checkCount]
  split
  · rfl
  · split <;> rfl

theorem take_eq (h : ring.Stored) (count : Nat) : take ring count = .ok (ring.take count) := by
  rw [take, checkCount_eq h, ok_bind, ByteRing.take]
  cases hcount : ring.checkCount count with
  | error fault => rfl
  | ok _ =>
    have hheld := le_of_checkCount hcount
    simp only [runs_eq h (show 0 + count ≤ ring.len by omega), ok_bind, advance_eq h hheld]
    rfl

theorem discard_eq (h : ring.Stored) (count : Nat) :
    discard ring count = .ok (ring.discard count) := by
  rw [discard, checkCount_eq h, ok_bind, ByteRing.discard]
  cases hcount : ring.checkCount count with
  | error fault => rfl
  | ok _ =>
    simp only [advance_eq h (le_of_checkCount hcount), ok_bind]
    rfl

/-! ## Building and handing out ranges -/

/-- A capacity that leaves no word for the spare slot is more than the memory grants. -/
theorem withCapacity_eq {memory : Memory} (hmemory : memory.limit ≤ blockLimit) (capacity : Nat) :
    withCapacity memory capacity = ByteRing.withCapacity memory capacity := by
  have hword := wordLimit_eq
  unfold withCapacity ByteRing.withCapacity
  by_cases hzero : capacity = 0
  · rw [if_pos hzero, if_pos hzero]
  · rw [if_neg hzero, if_neg hzero]
    cases hsum : sum? capacity 1 with
    | none =>
      have hlarge := le_of_sum?_eq_none hsum
      rw [Memory.reserve, if_neg (by omega)]
    | some size =>
      obtain rfl := eq_of_sum? hsum
      exact rfl

/-- A ring that is made with a capacity is blank and one block. -/
theorem stored_of_withCapacity {memory : Memory} (hmemory : memory.limit ≤ blockLimit)
    {capacity : Nat} (hmade : ByteRing.withCapacity memory capacity = .ok ring) : ring.Stored := by
  obtain ⟨hpos, hgranted, rfl⟩ := blank_of_withCapacity hmade
  have hlimit := Memory.reserve_eq_ok_iff.1 hgranted
  refine ⟨valid_blank hpos, ?_⟩
  rw [blank, Array.size_replicate]
  omega

theorem filled_eq {capacity : Nat} {head tail : List UInt8} (hpos : 1 ≤ capacity)
    (hfit : head.length + tail.length ≤ capacity) (hblock : capacity + 1 ≤ blockLimit) :
    filled capacity head tail = .ok (ByteRing.filled capacity head tail) := by
  have hword := wordLimit_eq
  rw [filled, add_eq (by omega), ok_bind, require_eq (decide_eq_true ⟨hpos, hfit⟩), ok_bind,
    add_eq (by omega), ok_bind,
    fill_eq (Nat.zero_add _) (by rw [Array.size_replicate]; omega), ok_bind,
    fill_eq rfl (by rw [size_writeRun, Array.size_replicate]; omega)]
  rfl

theorem ofBytes_eq {bytes : List UInt8} (hblock : max bytes.length 1 + 1 ≤ blockLimit) :
    ofBytes bytes = .ok (ByteRing.ofBytes bytes) :=
  filled_eq (Nat.le_max_right _ _) (Nat.le_max_left _ _) hblock

theorem ofRangeWithCapacity_eq {memory : Memory} (hmemory : memory.limit ≤ blockLimit)
    {bytes : List UInt8} (hbytes : bytes.length ≤ blockLimit) (offset length capacity : Nat) :
    ofRangeWithCapacity memory bytes offset length capacity =
      .ok (ByteRing.ofRangeWithCapacity memory bytes offset length capacity) := by
  unfold ofRangeWithCapacity ByteRing.ofRangeWithCapacity
  rw [checkRange_eq hbytes, withCapacity_eq hmemory]
  cases CyclicQueue.checkRange bytes.length offset length with
  | error fault => rfl
  | ok _ =>
    by_cases hbelow : capacity < length
    · simp only [if_pos hbelow]
      rfl
    · simp only [if_neg hbelow]
      cases hmade : ByteRing.withCapacity memory capacity with
      | error fault => rfl
      | ok ring =>
        simp only [pushRange_eq (stored_of_withCapacity hmemory hmade) hbytes, ok_bind]
        rcases ring.pushRange bytes offset length with ⟨_ | _, _⟩ <;> rfl

theorem ofBytesWithCapacity_eq {memory : Memory} (hmemory : memory.limit ≤ blockLimit)
    {bytes : List UInt8} (hbytes : bytes.length ≤ blockLimit) (capacity : Nat) :
    ofBytesWithCapacity memory bytes capacity =
      .ok (ByteRing.ofBytesWithCapacity memory bytes capacity) :=
  ofRangeWithCapacity_eq hmemory hbytes 0 bytes.length capacity

theorem ofRange_eq {memory : Memory} (hmemory : memory.limit ≤ blockLimit)
    {bytes : List UInt8} (hbytes : bytes.length ≤ blockLimit) (offset length : Nat) :
    ofRange memory bytes offset length = .ok (ByteRing.ofRange memory bytes offset length) :=
  ofRangeWithCapacity_eq hmemory hbytes offset length (max length 1)

theorem exportReserving_eq (h : ring.Stored) (memory : Memory) (offset length capacity : Nat) :
    exportReserving memory ring offset length capacity =
      .ok (ring.exportReserving memory offset length capacity) := by
  have hlen := h.valid.len_lt
  have hsize := h.size_le
  unfold exportReserving ByteRing.exportReserving
  rw [checkRange_eq (by omega)]
  cases hrange : CyclicQueue.checkRange ring.len offset length with
  | error fault => rfl
  | ok _ =>
    by_cases hbelow : capacity < length
    · simp only [if_pos hbelow]
      rfl
    · simp only [if_neg hbelow, runs_eq h (checkRange_eq_ok_iff.1 hrange).2, ok_bind]
      cases memory.reserve capacity <;> rfl

/-- The two windows that a copy goes to follow each other inside the target. -/
theorem copyTo_eq (h : ring.Stored) (offset length : Nat) {target : List UInt8}
    (htarget : target.length ≤ blockLimit) (targetOffset : Nat) :
    copyTo ring offset length target targetOffset =
      .ok (ring.copyTo offset length target targetOffset) := by
  have hword := wordLimit_eq
  have hlen := h.valid.len_lt
  have hsize := h.size_le
  unfold copyTo ByteRing.copyTo
  rw [checkRange_eq (by omega), checkRange_eq htarget]
  cases hrange : CyclicQueue.checkRange ring.len offset length with
  | error fault => rfl
  | ok _ =>
    cases hwindow : CyclicQueue.checkRange target.length targetOffset length with
    | error fault => rfl
    | ok _ =>
      obtain ⟨-, hend⟩ := checkRange_eq_ok_iff.1 hrange
      obtain ⟨-, hinside⟩ := checkRange_eq_ok_iff.1 hwindow
      have hhead := length_head_runs offset length h.valid.size_pos
      have htail : (ring.runs offset length).tail.length =
          length - (ring.storage.size - ring.slot offset) :=
        length_tail_runs h.valid.size_pos (by omega)
      simp only [runs_eq h hend, ok_bind]
      generalize ring.runs offset length = runs at hhead htail ⊢
      rw [add_eq (by omega), ok_bind, copyOver_eq rfl (by omega), ok_bind]
      by_cases hnil : runs.tail.isEmpty = true
      · rw [if_pos hnil, if_pos hnil]
        rfl
      · rw [if_neg hnil, if_neg hnil, add_eq (by omega), ok_bind,
          copyOver_eq (by omega) (by rw [length_overwrite]; exact hinside)]
        rfl

theorem length_slices (h : ring.Stored) :
    ring.slices.head.length + ring.slices.tail.length = ring.len := by
  rw [← List.length_append]
  exact h.valid.length_toList

theorem realign_eq (h : ring.Stored) : realign ring = .ok ring.realign := by
  have hcapacity := h.valid.size_eq
  have htwo := h.valid.two_le_size
  have hsize := h.size_le
  have hpieces := length_slices h
  have hlen := h.valid.len_le
  rw [realign, slices_eq h, ok_bind, capacity_eq h, ok_bind,
    filled_eq (by omega) (by omega) (by omega)]
  rfl

theorem copyRangeWithCapacity_eq (h : ring.Stored) {memory : Memory}
    (hmemory : memory.limit ≤ blockLimit) (offset length capacity : Nat) :
    copyRangeWithCapacity memory ring offset length capacity =
      .ok (ring.copyRangeWithCapacity memory offset length capacity) := by
  have hlen := h.valid.len_lt
  have hsize := h.size_le
  unfold copyRangeWithCapacity ByteRing.copyRangeWithCapacity
  rw [checkRange_eq (by omega), withCapacity_eq hmemory]
  cases hrange : CyclicQueue.checkRange ring.len offset length with
  | error fault => rfl
  | ok _ =>
    by_cases hbelow : capacity < length
    · simp only [if_pos hbelow]
      rfl
    · simp only [if_neg hbelow]
      cases hmade : ByteRing.withCapacity memory capacity with
      | error fault => rfl
      | ok copy =>
        have hcopy := stored_of_withCapacity hmemory hmade
        obtain ⟨-, hend⟩ := checkRange_eq_ok_iff.1 hrange
        have hhead := length_head_runs offset length h.valid.size_pos
        have htail : (ring.runs offset length).tail.length =
            length - (ring.storage.size - ring.slot offset) :=
          length_tail_runs h.valid.size_pos (by omega)
        simp only [runs_eq h hend, ok_bind]
        generalize ring.runs offset length = runs at hhead htail ⊢
        rw [pushSlice_eq hcopy (by omega), ok_bind]
        have hadded : (copy.pushSlice runs.head).2.Stored :=
          hcopy.of_leads (.of_moved (hcopy.valid.moved_update (.pushSlice runs.head)))
        generalize copy.pushSlice runs.head = pushed at hadded ⊢
        rcases pushed with ⟨_ | _, added⟩
        · rfl
        · simp only [pushSlice_eq hadded (show runs.tail.length ≤ blockLimit by omega), ok_bind]
          rcases added.pushSlice runs.tail with ⟨_ | _, _⟩ <;> rfl

theorem copyRange_eq (h : ring.Stored) {memory : Memory} (hmemory : memory.limit ≤ blockLimit)
    (offset length : Nat) :
    copyRange memory ring offset length = .ok (ring.copyRange memory offset length) :=
  copyRangeWithCapacity_eq h hmemory offset length (max length 1)

end Guarded

end CyclicQueue.ByteRing
