import CyclicQueue.ByteRing.Contents
import CyclicQueue.Fifo

/-!
# Changes of a ring and of a bounded list

A change leaves a ring as it is, empties it, adds bytes that fit or passes bytes that it holds.
Told on the contents these are the moves of a bounded list, refusals included, so a run of a ring
answers as the run of the list that it stands for.
-/

namespace CyclicQueue

@[simp] theorem Fifo.held_fifo (ring : ByteRing) : ring.fifo.held = ring.toList := rfl

@[simp] theorem Fifo.capacity_fifo (ring : ByteRing) : ring.fifo.capacity = ring.capacity := rfl

namespace ByteRing

@[simp] theorem capacity_append (ring : ByteRing) (bytes : List UInt8) :
    (ring.append bytes).capacity = ring.capacity := by
  rw [capacity, size_storage_append, capacity]

@[simp] theorem capacity_advance (ring : ByteRing) (count : Nat) :
    (ring.advance count).capacity = ring.capacity := rfl

@[simp] theorem capacity_clear (ring : ByteRing) : ring.clear.capacity = ring.capacity := rfl

@[simp] theorem len_append (ring : ByteRing) (bytes : List UInt8) :
    (ring.append bytes).len = ring.len + bytes.length := rfl

theorem free_append (ring : ByteRing) (bytes : List UInt8) :
    (ring.append bytes).free = ring.free - bytes.length := by
  rw [free, capacity_append, len_append, free, Nat.sub_sub]

@[simp] theorem len_advance (ring : ByteRing) (count : Nat) :
    (ring.advance count).len = ring.len - count := rfl

theorem advance_advance (ring : ByteRing) (m n : Nat) :
    (ring.advance m).advance n = ring.advance (m + n) := by
  simp only [advance, Cursor.forward_forward, Nat.sub_sub]

theorem fifo_eq_iff {a b : ByteRing} :
    a.fifo = b.fifo ↔ a.capacity = b.capacity ∧ a.toList = b.toList := by
  rw [fifo, fifo, Fifo.mk.injEq]

namespace Valid

variable {ring : ByteRing}

theorem append_nil (h : ring.Valid) : ring.append [] = ring := by
  have hw : Cursor.forward ring.storage.size ring.writePos 0 = ring.writePos :=
    Cursor.forward_zero h.writePos_lt
  cases ring
  simpa [ByteRing.append, writeRun] using hw

theorem advance_zero (h : ring.Valid) : ring.advance 0 = ring := by
  have hr : Cursor.forward ring.storage.size ring.readPos 0 = ring.readPos :=
    Cursor.forward_zero h.readPos_lt
  cases ring
  simpa [ByteRing.advance] using hr

theorem room_fifo (h : ring.Valid) : ring.fifo.room = ring.free := by
  rw [Fifo.room, Fifo.held_fifo, h.length_toList, Fifo.capacity_fifo, free]

theorem fifo_append (h : ring.Valid) {bytes : List UInt8} (hb : bytes.length ≤ ring.free) :
    (ring.append bytes).fifo = ring.fifo.append bytes := by
  rw [fifo, capacity_append, h.toList_append hb]
  rfl

theorem fifo_advance (h : ring.Valid) {count : Nat} (hc : count ≤ ring.len) :
    (ring.advance count).fifo = ring.fifo.drop count := by
  rw [fifo, h.toList_advance hc]
  rfl

theorem fifo_clear (h : ring.Valid) : ring.clear.fifo = { ring.fifo with held := [] } := by
  rw [fifo, h.toList_clear]
  rfl

/-- The contents never exceed the capacity. -/
theorem bounded_fifo (h : ring.Valid) : ring.fifo.Bounded := by
  rw [Fifo.Bounded, Fifo.held_fifo, h.length_toList]
  exact h.len_le

end Valid

/-! ## Changes that go through -/

theorem Valid.pushRange_eq {ring : ByteRing} (h : ring.Valid) {bytes : List UInt8}
    {offset length : Nat} (hrange : checkRange bytes.length offset length = .ok ())
    (hroom : length ≤ ring.free) :
    ring.pushRange bytes offset length =
      (.ok (), ring.append ((bytes.drop offset).take length)) := by
  simp only [pushRange, hrange]
  by_cases hzero : length = 0
  · rw [if_pos hzero, hzero, List.take_zero, h.append_nil]
  · rw [if_neg hzero, if_neg (Nat.not_lt.2 hroom)]

theorem Valid.pushSlice_eq {ring : ByteRing} (h : ring.Valid) {bytes : List UInt8}
    (hroom : bytes.length ≤ ring.free) : ring.pushSlice bytes = (.ok (), ring.append bytes) := by
  have heq := h.pushRange_eq (checkRange_zero_length bytes.length) hroom
  rwa [List.drop_zero, List.take_length] at heq

theorem Valid.pushSlice_ok_iff {ring : ByteRing} (h : ring.Valid) {bytes : List UInt8} :
    (ring.pushSlice bytes).1 = .ok () ↔ bytes.length ≤ ring.free := by
  constructor
  · intro hok
    rcases Nat.lt_or_ge ring.free bytes.length with hlack | hroom
    · have hne : bytes.length ≠ 0 := by omega
      simp only [pushSlice, pushRange, checkRange_zero_length, if_neg hne, if_pos hlack] at hok
      cases hok
    · exact hroom
  · intro hroom
    rw [h.pushSlice_eq hroom]

theorem Valid.checkCount_eq {ring : ByteRing} (h : ring.Valid) {count : Nat}
    (hc : count ≤ ring.len) : ring.checkCount count = .ok () := by
  have hlen := h.len_le
  rw [checkCount, if_neg (by omega), if_neg (by omega)]

theorem le_of_checkCount {ring : ByteRing} {count : Nat}
    (hcount : ring.checkCount count = .ok ()) : count ≤ ring.len := by
  unfold checkCount at hcount
  split at hcount
  · cases hcount
  · split at hcount
    · cases hcount
    · next hlen => exact Nat.not_lt.1 hlen

theorem Valid.discard_eq {ring : ByteRing} (h : ring.Valid) {count : Nat}
    (hc : count ≤ ring.len) : ring.discard count = (.ok (), ring.advance count) := by
  simp only [discard, h.checkCount_eq hc]

theorem Valid.take_eq {ring : ByteRing} (h : ring.Valid) {count : Nat} (hc : count ≤ ring.len) :
    ring.take count = (.ok (ring.toList.take count), ring.advance count) := by
  simp only [take, h.checkCount_eq hc]
  rw [h.range_eq (by omega), List.drop_zero]

/-! ## One change -/

/-- A ring's answer is the list's answer, and the ring left stands for the list left. -/
structure Matches (result : Except Fault Removed × ByteRing)
    (expected : Except Fault Removed × Fifo) : Prop where
  outcome : result.1 = expected.1
  valid : result.2.Valid
  fifo : result.2.fifo = expected.2

variable {ring : ByteRing}

theorem Valid.matches_pushRange (h : ring.Valid) (bytes : List UInt8) (offset length : Nat) :
    Matches (handing (fun _ => .nothing) (ring.pushRange bytes offset length))
      (ring.fifo.pushRange bytes offset length) := by
  unfold pushRange checkRange Fifo.pushRange
  rw [h.room_fifo]
  by_cases hoffset : offset ≠ 0 ∧ bytes.length ≤ offset
  · rw [if_pos hoffset, if_pos hoffset]
    exact ⟨rfl, h, rfl⟩
  · rw [if_neg hoffset, if_neg hoffset]
    by_cases hend : bytes.length < offset + length
    · rw [if_pos hend, if_neg (Nat.not_le.2 hend)]
      exact ⟨rfl, h, rfl⟩
    · rw [if_neg hend, if_pos (Nat.not_lt.1 hend)]
      by_cases hzero : length = 0
      · simp only [if_pos hzero]
        exact ⟨rfl, h, rfl⟩
      · simp only [if_neg hzero]
        by_cases hroom : ring.free < length
        · rw [if_pos hroom, if_pos hroom]
          exact ⟨rfl, h, rfl⟩
        · rw [if_neg hroom, if_neg hroom]
          have hfit : ((bytes.drop offset).take length).length ≤ ring.free := by
            rw [List.length_take]
            omega
          exact ⟨rfl, h.append hfit, h.fifo_append hfit⟩

theorem Valid.matches_push (h : ring.Valid) (byte : UInt8) :
    Matches (ring.update (.push byte)) (ring.fifo.update (.push byte)) := by
  have hlen := h.length_toList
  cases hfull : ring.isFull with
  | true =>
    have heq : ring.len = ring.capacity := isFull_iff.1 hfull
    simp only [update, push, hfull, if_true, Fifo.update, Fifo.held_fifo, Fifo.capacity_fifo,
      hlen, heq]
    exact ⟨rfl, h, rfl⟩
  | false =>
    have hne : ring.len ≠ ring.capacity := isFull_eq_false_iff.1 hfull
    have hle := h.len_le
    have hfit : [byte].length ≤ ring.free := by
      rw [List.length_singleton, free]
      omega
    simp only [update, push_eq_append h hfull, Fifo.update, Fifo.held_fifo, Fifo.capacity_fifo,
      hlen, if_neg hne]
    exact ⟨rfl, h.append hfit, h.fifo_append hfit⟩

theorem Valid.pop_eq (h : ring.Valid) :
    ring.pop =
      match ring.toList with
      | [] => (.error .empty, ring)
      | byte :: _ => (.ok byte, ring.advance 1) := by
  cases hheld : ring.toList with
  | nil =>
    have hzero : ring.len = 0 := h.toList_eq_nil_iff.1 hheld
    rw [pop, isEmpty, hzero]
    rfl
  | cons byte rest =>
    have hlen : ring.len = rest.length + 1 := by rw [← h.length_toList, hheld, List.length_cons]
    have hne : (ring.len == 0) = false := by simp [hlen]
    have hread : byte = ring.storage.getD ring.readPos 0 := by
      have hfirst := h.getD_slot (show 0 < ring.len by omega)
      rw [hheld, slot, Cursor.forward_zero h.readPos_lt] at hfirst
      exact Option.some.inj hfirst
    rw [pop, isEmpty, hne, hread]
    rfl

theorem Valid.matches_pop (h : ring.Valid) :
    Matches (ring.update .pop) (ring.fifo.update .pop) := by
  simp only [update, h.pop_eq, Fifo.update, Fifo.held_fifo]
  cases hheld : ring.toList with
  | nil => exact ⟨rfl, h, rfl⟩
  | cons byte rest =>
    have hpos : 1 ≤ ring.len := by
      rw [← h.length_toList, hheld]
      exact Nat.succ_pos _
    exact ⟨rfl, h.advance hpos, h.fifo_advance hpos⟩

/-- The guard of a bulk removal refuses what the list refuses, in the same order. -/
theorem Valid.matches_remove {α : Type} (h : ring.Valid) {count : Nat} {value : α}
    {make : α → Removed} {handed : Removed} (hvalue : count ≤ ring.len → make value = handed) :
    Matches
      (handing make
        (match ring.checkCount count with
        | .error fault => (.error fault, ring)
        | .ok () => (.ok value, ring.advance count)))
      (ring.fifo.remove count handed) := by
  unfold checkCount Fifo.remove
  rw [Fifo.held_fifo, Fifo.capacity_fifo, h.length_toList]
  by_cases hcapacity : ring.capacity < count
  · rw [if_pos hcapacity, if_pos hcapacity]
    exact ⟨rfl, h, rfl⟩
  · rw [if_neg hcapacity, if_neg hcapacity]
    by_cases hlen : ring.len < count
    · rw [if_pos hlen, if_pos hlen]
      exact ⟨rfl, h, rfl⟩
    · rw [if_neg hlen, if_neg hlen, ← hvalue (Nat.not_lt.1 hlen)]
      exact ⟨rfl, h.advance (Nat.not_lt.1 hlen), h.fifo_advance (Nat.not_lt.1 hlen)⟩

/-- One change of a ring is the change of the list that it stands for. -/
theorem Valid.matches_update (h : ring.Valid) (change : Update) :
    Matches (ring.update change) (ring.fifo.update change) := by
  cases change with
  | clear => exact ⟨rfl, h.clear, h.fifo_clear⟩
  | push byte => exact h.matches_push byte
  | pushSlice bytes => exact h.matches_pushRange bytes 0 bytes.length
  | pushRange bytes offset length => exact h.matches_pushRange bytes offset length
  | pop => exact h.matches_pop
  | take count =>
    apply h.matches_remove
    intro hc
    rw [h.range_eq (by omega), List.drop_zero, Fifo.held_fifo]
  | discard count => exact h.matches_remove fun _ => rfl

/-! ## Runs -/

/-- A run of changes answers as the run of the list does, and ends where it ends. -/
theorem Valid.updates_fifo {ring : ByteRing} (h : ring.Valid) (changes : List Update) :
    (ring.updates changes).1 = (ring.fifo.updates changes).1 ∧
      (ring.updates changes).2.Valid ∧
      (ring.updates changes).2.fifo = (ring.fifo.updates changes).2 := by
  induction changes generalizing ring with
  | nil => exact ⟨rfl, h, rfl⟩
  | cons change changes ih =>
    have hstep := h.matches_update change
    obtain ⟨houtcomes, hvalid, hfifo⟩ := ih hstep.valid
    rw [hstep.fifo] at houtcomes hfifo
    refine ⟨?_, hvalid, hfifo⟩
    simp only [updates, Fifo.updates, hstep.outcome, houtcomes]

end ByteRing

end CyclicQueue
