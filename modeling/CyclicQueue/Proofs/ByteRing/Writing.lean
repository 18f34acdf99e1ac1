import CyclicQueue.Proofs.ByteRing.Bulk
import CyclicQueue.Proofs.ByteRing.Cursors
import Mathlib.Algebra.GroupWithZero.Nat
import Mathlib.Data.List.Nodup

/-!
# Which slots are written

A request that adds bytes writes the slots from the write cursor on, each of them once, in at most
two runs. None of them holds a byte, so what is held stays where it is until it is removed. A
request that removes bytes writes no slot at all.
-/

namespace CyclicQueue.ByteRing

variable {ring left : ByteRing}

/-! ## Writes one after the other -/

def assign (storage : Array UInt8) (writes : List (Nat × UInt8)) : Array UInt8 :=
  writes.foldl (fun storage write => storage.setIfInBounds write.1 write.2) storage

theorem writeRun_eq_assign (storage : Array UInt8) (start : Nat) (bytes : List UInt8) :
    writeRun storage start bytes = assign storage ((List.range' start bytes.length).zip bytes) := by
  induction bytes generalizing storage start with
  | nil => rfl
  | cons byte bytes ih => exact ih (storage.setIfInBounds start byte) (start + 1)

/-- The `count` slots from the write cursor on. -/
def nextSlots (ring : ByteRing) (count : Nat) : List Nat :=
  (List.range count).map fun i => (ring.writePos + i) % ring.storage.size

/-- The slots of the bytes that are held, oldest first. -/
def heldSlots (ring : ByteRing) : List Nat :=
  (List.range ring.len).map fun i => (ring.readPos + i) % ring.storage.size

theorem mem_nextSlots {count slot : Nat} :
    slot ∈ ring.nextSlots count ↔ ∃ i < count, (ring.writePos + i) % ring.storage.size = slot := by
  simp [nextSlots]

theorem mem_heldSlots {slot : Nat} :
    slot ∈ ring.heldSlots ↔ ∃ i < ring.len, (ring.readPos + i) % ring.storage.size = slot := by
  simp [heldSlots]

/-- A run up to the end of the storage and one from slot 0 on cover these slots, each once. -/
theorem range'_append_range'_eq {count : Nat} (hw : ring.writePos < ring.storage.size)
    (hcount : count ≤ ring.storage.size) :
    List.range' ring.writePos (min count (ring.storage.size - ring.writePos)) ++
        List.range' 0 (count - min count (ring.storage.size - ring.writePos)) =
      ring.nextSlots count := by
  apply List.ext_getElem
  · simp only [List.length_append, List.length_range', nextSlots, List.length_map,
      List.length_range]
    omega
  · intro i hleft hright
    have hi : i < count := by simpa [nextSlots] using hright
    have hslot : (ring.nextSlots count)[i] = (ring.writePos + i) % ring.storage.size := by
      simp [nextSlots]
    rw [hslot, List.getElem_append]
    split
    · next hhead =>
      have hin : ring.writePos + i < ring.storage.size := by
        rw [List.length_range'] at hhead
        omega
      simp [Nat.mod_eq_of_lt hin]
    · next htail =>
      have hout : ring.storage.size ≤ ring.writePos + i := by
        rw [List.length_range'] at htail
        omega
      have hround : (ring.writePos + i) % ring.storage.size =
          ring.writePos + i - ring.storage.size := Cursor.forward_eq_sub hout (by omega)
      rw [List.getElem_range', List.length_range', hround]
      omega

/-- The two runs carry out one write for each added byte. -/
theorem storage_append_eq_assign {bytes : List UInt8} (hw : ring.writePos < ring.storage.size)
    (hfit : bytes.length ≤ ring.storage.size) :
    (ring.append bytes).storage =
      assign ring.storage ((ring.nextSlots bytes.length).zip bytes) := by
  let room := min bytes.length (ring.storage.size - ring.writePos)
  have hhead : (bytes.take room).length = room :=
    List.length_take_of_le (Nat.min_le_left _ _)
  have htail : (bytes.drop room).length = bytes.length - room := List.length_drop
  calc
    _ = writeRun (writeRun ring.storage ring.writePos (bytes.take room)) 0 (bytes.drop room) := rfl
    _ = assign ring.storage ((List.range' ring.writePos room).zip (bytes.take room) ++
          (List.range' 0 (bytes.length - room)).zip (bytes.drop room)) := by
      simp only [writeRun_eq_assign, hhead, htail, assign, List.foldl_append]
    _ = assign ring.storage ((ring.nextSlots bytes.length).zip bytes) := by
      rw [← List.zip_append (by simp [hhead]), range'_append_range'_eq hw hfit,
        List.take_append_drop]

namespace Valid

theorem nodup_nextSlots (h : ring.Valid) {count : Nat} (hcount : count ≤ ring.storage.size) :
    (ring.nextSlots count).Nodup := by
  apply List.Nodup.map_on _ List.nodup_range
  intro i hi j hj heq
  rw [List.mem_range] at hi hj
  exact Cursor.forward_injective h.writePos_lt (by omega) (by omega) heq

/-- The slots that follow the write cursor follow the slots of the bytes that are held. -/
theorem next_eq_slot (h : ring.Valid) (i : Nat) :
    (ring.writePos + i) % ring.storage.size = ring.slot (ring.len + i) := by
  rw [h.writePos_eq]
  exact Cursor.forward_forward ring.storage.size ring.readPos ring.len i

theorem not_mem_heldSlots (h : ring.Valid) {count slot : Nat} (hcount : count ≤ ring.free)
    (hslot : slot ∈ ring.nextSlots count) : slot ∉ ring.heldSlots := by
  intro hheld
  obtain ⟨i, hi, rfl⟩ := mem_nextSlots.1 hslot
  obtain ⟨j, hj, hsame⟩ := mem_heldSlots.1 hheld
  have hsize := h.size_eq
  unfold free at hcount
  have heq : j = ring.len + i := by
    apply h.slot_injective (by omega) (by omega)
    exact hsame.trans (h.next_eq_slot i)
  omega

theorem heldSlots_append (h : ring.Valid) (bytes : List UInt8) :
    (ring.append bytes).heldSlots = ring.heldSlots ++ ring.nextSlots bytes.length := by
  have hsame : (ring.append bytes).heldSlots =
      (List.range (ring.len + bytes.length)).map ring.slot := by
    simp only [heldSlots, size_storage_append]
    rfl
  rw [hsame, List.range_add, List.map_append, List.map_map]
  congr 1
  apply List.map_congr_left
  intro i _
  exact (h.next_eq_slot i).symm

end Valid

/-! ## Requests -/

/-- What adding `length` bytes of `bytes` from `offset` on writes, and what it leaves. -/
structure Writes (ring : ByteRing) (bytes : List UInt8) (offset length : Nat)
    (left : ByteRing) : Prop where
  storage_eq : left.storage =
    assign ring.storage ((ring.nextSlots length).zip ((bytes.drop offset).take length))
  nodup : (ring.nextSlots length).Nodup
  unoccupied : ∀ slot ∈ ring.nextSlots length,
    slot < ring.storage.size ∧ slot ∉ ring.heldSlots
  written : ∀ i < length, ∃ byte, bytes[offset + i]? = some byte ∧
    left.storage[(ring.writePos + i) % ring.storage.size]? = some byte
  kept : ∀ slot, slot ∉ ring.nextSlots length → left.storage[slot]? = ring.storage[slot]?
  readPos_eq : left.readPos = ring.readPos
  capacity_eq : left.capacity = ring.capacity
  heldSlots_eq : left.heldSlots = ring.heldSlots ++ ring.nextSlots length
  one_le_spare : 1 ≤ left.storage.size - left.len

theorem Valid.writes_append (h : ring.Valid) {bytes : List UInt8} {offset length : Nat}
    (hend : offset + length ≤ bytes.length) (hroom : length ≤ ring.free) :
    ring.Writes bytes offset length (ring.append ((bytes.drop offset).take length)) := by
  have hsize := h.size_eq
  have hw := h.writePos_lt
  have hlength : ((bytes.drop offset).take length).length = length := by
    rw [List.length_take, List.length_drop]
    omega
  have hfit : length ≤ ring.storage.size := by
    unfold free at hroom
    omega
  have hleft : (ring.append ((bytes.drop offset).take length)).Valid :=
    h.append (by rwa [hlength])
  refine ⟨?_, h.nodup_nextSlots hfit, ?_, ?_, ?_, rfl, capacity_append _ _, ?_, ?_⟩
  · have hstorage := storage_append_eq_assign hw (hlength.symm ▸ hfit)
    rwa [hlength] at hstorage
  · intro slot hslot
    refine ⟨?_, h.not_mem_heldSlots hroom hslot⟩
    obtain ⟨i, -, rfl⟩ := mem_nextSlots.1 hslot
    exact Nat.mod_lt _ h.size_pos
  · intro i hi
    have hin : offset + i < bytes.length := by omega
    refine ⟨bytes[offset + i], List.getElem?_eq_getElem hin, ?_⟩
    have hwritten := storage_append_written hw (hlength.symm ▸ hfit) (hlength.symm ▸ hi)
    rwa [List.getElem?_take_of_lt hi, List.getElem?_drop, List.getElem?_eq_getElem hin] at hwritten
  · intro slot hslot
    rcases Nat.lt_or_ge slot ring.storage.size with hin | hout
    · apply storage_append_other hw hin
      intro i hi heq
      exact hslot (mem_nextSlots.2 ⟨i, hlength ▸ hi, heq⟩)
    · rw [Array.getElem?_eq_none (by simpa using hout), Array.getElem?_eq_none hout]
  · rw [h.heldSlots_append, hlength]
  · have hlt := hleft.len_lt
    omega

theorem Valid.writes_pushRange (h : ring.Valid) {bytes : List UInt8} {offset length : Nat}
    (hok : ring.pushRange bytes offset length = (.ok (), left)) :
    ring.Writes bytes offset length left := by
  obtain ⟨hrange, hroom⟩ := of_pushRange_ok hok
  rw [h.pushRange_eq hrange hroom] at hok
  obtain ⟨-, rfl⟩ := Prod.mk.inj hok
  exact h.writes_append (checkRange_eq_ok_iff.1 hrange).2 hroom

theorem Valid.writes_push (h : ring.Valid) {byte : UInt8}
    (hok : ring.push byte = (.ok (), left)) : ring.Writes [byte] 0 1 left := by
  cases hfull : ring.isFull with
  | true =>
    rw [push, if_pos hfull] at hok
    cases hok
  | false =>
    rw [push_eq_append h hfull] at hok
    obtain ⟨-, rfl⟩ := Prod.mk.inj hok
    have hle := h.len_le
    have hne := isFull_eq_false_iff.1 hfull
    have hroom : 1 ≤ ring.free := by
      unfold free
      omega
    exact h.writes_append (Nat.le_refl 1) hroom

/-- A write takes as many bytes as there is room for. -/
theorem Valid.writes_write (h : ring.Valid) (bytes : List UInt8) :
    ∃ left, ring.write bytes = (.ok (min bytes.length ring.free), left) ∧
      ring.Writes bytes 0 (min bytes.length ring.free) left := by
  have htaken : bytes.take ring.free = (bytes.drop 0).take (min bytes.length ring.free) := by
    rw [List.drop_zero, Nat.min_comm, ← List.take_eq_take_min]
  refine ⟨_, h.write_eq bytes, ?_⟩
  rw [htaken]
  exact h.writes_append (by omega) (Nat.min_le_right _ _)

theorem Valid.storage_update_of_adds (h : ring.Valid) {change : Update} (hadds : change.adds = 0) :
    (ring.update change).2.storage = ring.storage ∧
      (change ≠ .clear → (ring.update change).2.writePos = ring.writePos) := by
  have hmoved := h.moved_update change
  generalize ring.update change = result at hmoved ⊢
  cases hmoved with
  | refused fault => exact ⟨rfl, fun _ => rfl⟩
  | cleared hclear => exact ⟨rfl, fun hne => absurd hclear hne⟩
  | added hfit hlength _ =>
    obtain rfl := List.eq_nil_of_length_eq_zero (hlength.symm.trans hadds)
    rw [h.append_nil]
    exact ⟨rfl, fun _ => rfl⟩
  | removed handed hheld _ => exact ⟨rfl, fun _ => rfl⟩

theorem Valid.storage_read (h : ring.Valid) (buffer : List UInt8) :
    (ring.read buffer).ring.storage = ring.storage ∧
      (ring.read buffer).ring.writePos = ring.writePos := by
  rw [h.read_eq]
  exact ⟨rfl, rfl⟩

/-! ## Bytes that are held -/

/-- A change leaves a held byte in its slot unless it removes that byte. -/
theorem Valid.update_held (h : ring.Valid) {change : Update} (hclear : change ≠ .clear)
    {index : Nat} (hheld : index < ring.len) (hbehind : change.removes ≤ index) :
    (ring.update change).2.storage[ring.slot index]? = ring.storage[ring.slot index]? ∧
      ∃ index' < (ring.update change).2.len, index ≤ index' + change.removes ∧
        (ring.update change).2.slot index' = ring.slot index := by
  have hmoved := h.moved_update change
  generalize ring.update change = result at hmoved ⊢
  cases hmoved with
  | refused fault => exact ⟨rfl, index, hheld, Nat.le_add_right _ _, rfl⟩
  | cleared hcleared => exact absurd hcleared hclear
  | @added bytes hfit hadds hremoves =>
    refine ⟨?_, index, Nat.lt_add_right _ hheld, Nat.le_add_right _ _, ?_⟩
    · apply storage_append_other h.writePos_lt (slot_lt h.size_pos index)
      intro i hi heq
      have hnext : ring.slot index ∈ ring.nextSlots bytes.length := mem_nextSlots.2 ⟨i, hi, heq⟩
      exact h.not_mem_heldSlots hfit hnext (mem_heldSlots.2 ⟨index, hheld, rfl⟩)
    · simp only [slot, size_storage_append]
      rfl
  | removed handed hle hadds =>
    refine ⟨rfl, index - change.removes, ?_, by omega, ?_⟩
    · rw [len_advance]
      omega
    · have hpassed := (slot_add ring change.removes (index - change.removes)).symm
      rwa [Nat.add_sub_cancel' hbehind] at hpassed

/-- Along a run the byte behind `index` older ones stays in its slot while no more than those are
removed. -/
theorem Valid.updates_held (h : ring.Valid) {changes : List Update} (hclear : .clear ∉ changes)
    {index : Nat} (hheld : index < ring.len)
    (hbehind : (changes.map Update.removes).sum ≤ index) :
    (ring.updates changes).2.storage[ring.slot index]? = ring.storage[ring.slot index]? := by
  induction changes generalizing ring index with
  | nil => rfl
  | cons change changes ih =>
    have hfirst : change ≠ .clear := fun heq => hclear (heq ▸ List.mem_cons_self)
    have hrest : .clear ∉ changes := fun hmem => hclear (List.mem_cons_of_mem change hmem)
    rw [List.map_cons, List.sum_cons] at hbehind
    obtain ⟨hbyte, index', hheld', hindex, hslot⟩ := h.update_held hfirst hheld (by omega)
    have hvalid := (Leads.of_moved (h.moved_update change)).valid h
    have hlast := ih hvalid hrest hheld' (by omega)
    rw [hslot] at hlast
    exact hlast.trans hbyte

/-- Requests that add bytes write the slots behind the write cursor, each once and none that is
held, and no other slot; requests that remove bytes write none. -/
theorem pushes_write_free_slots (h : ring.Reachable) :
    (∀ bytes offset length left, ring.pushRange bytes offset length = (.ok (), left) →
      ring.Writes bytes offset length left) ∧
    (∀ byte left, ring.push byte = (.ok (), left) → ring.Writes [byte] 0 1 left) ∧
    (∀ bytes, ∃ left, ring.write bytes = (.ok (min bytes.length ring.free), left) ∧
      ring.Writes bytes 0 (min bytes.length ring.free) left) ∧
    (∀ change, change.adds = 0 → (ring.update change).2.storage = ring.storage ∧
      (change ≠ .clear → (ring.update change).2.writePos = ring.writePos)) ∧
    ∀ buffer, (ring.read buffer).ring.storage = ring.storage ∧
      (ring.read buffer).ring.writePos = ring.writePos := by
  have hvalid := h.valid
  refine ⟨?_, ?_, hvalid.writes_write, ?_, hvalid.storage_read⟩
  · intro bytes offset length left hok
    exact hvalid.writes_pushRange hok
  · intro byte left hok
    exact hvalid.writes_push hok
  · intro change hadds
    exact hvalid.storage_update_of_adds hadds

/-- Three bytes are written round the end of the storage, and two of them are taken out again. -/
theorem pushes_write_free_slots_wrapped :
    Reachable ⟨#[5, 6, 0, 0], 2, 2, 0⟩ ∧
      pushRange ⟨#[5, 6, 0, 0], 2, 2, 0⟩ [1, 7, 8, 9] 1 3 = (.ok (), ⟨#[9, 6, 7, 8], 2, 1, 3⟩) ∧
      Writes ⟨#[5, 6, 0, 0], 2, 2, 0⟩ [1, 7, 8, 9] 1 3 ⟨#[9, 6, 7, 8], 2, 1, 3⟩ ∧
      nextSlots ⟨#[5, 6, 0, 0], 2, 2, 0⟩ 3 = [2, 3, 0] ∧
      heldSlots ⟨#[9, 6, 7, 8], 2, 1, 3⟩ = [2, 3, 0] ∧
      (update ⟨#[9, 6, 7, 8], 2, 1, 3⟩ (.take 2)).2.storage = #[9, 6, 7, 8] ∧
      (update ⟨#[9, 6, 7, 8], 2, 1, 3⟩ (.take 2)).2.writePos = 1 := by
  have hmake : (Recipe.ofBytesWithCapacity [5, 6] 3).make .ordinary =
      .ok ⟨#[5, 6, 0, 0], 0, 2, 2⟩ := rfl
  have hempty : Reachable ⟨#[5, 6, 0, 0], 2, 2, 0⟩ :=
    (Reachable.made hmake).updates [.discard 2]
  have hfull : Reachable ⟨#[9, 6, 7, 8], 2, 1, 3⟩ :=
    hempty.updates [.pushRange [1, 7, 8, 9] 1 3]
  obtain ⟨hpush, -⟩ := pushes_write_free_slots hempty
  obtain ⟨-, -, -, hkept, -⟩ := pushes_write_free_slots hfull
  have hwrites := hpush [1, 7, 8, 9] 1 3 _ rfl
  obtain ⟨hstorage, hcursor⟩ := hkept (.take 2) rfl
  have htaken : Update.take 2 ≠ .clear := by decide
  exact ⟨hempty, rfl, hwrites, rfl, hwrites.heldSlots_eq, hstorage, hcursor htaken⟩

end CyclicQueue.ByteRing
