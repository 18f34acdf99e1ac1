import CyclicQueue.Mirror
import CyclicQueue.Proofs.ByteRing.Layout
import CyclicQueue.Proofs.SlotTracker.Moves

/-!
# A ring and a tracker go in step

A ring moves its cursors by any number of slots at once and tells from its length whether it is empty
or full. A tracker moves by single slots and tells it from its cursors. Moved once for every byte
that goes in or out of the ring, the tracker has the ring's cursors after every change, and none of
its moves is refused.
-/

namespace CyclicQueue

namespace SlotTracker

variable {tracker : SlotTracker}

/-! ## Many single moves -/

/-- A tracker with `count` more elements at the back. -/
def grownBackBy (tracker : SlotTracker) (count : Nat) : SlotTracker :=
  { tracker with
    next := Cursor.forward tracker.capacity tracker.next count
    len := tracker.len + count }

/-- A tracker with `count` elements less at the front. -/
def shrunkFrontBy (tracker : SlotTracker) (count : Nat) : SlotTracker :=
  { tracker with
    first := Cursor.forward tracker.capacity tracker.first count
    len := tracker.len - count }

theorem grownBackBy_grownBack (tracker : SlotTracker) (count : Nat) :
    tracker.grownBack.grownBackBy count = tracker.grownBackBy (count + 1) := by
  simp only [grownBack, grownBackBy, after, Cursor.forward_forward, Nat.add_assoc,
    Nat.add_comm count 1]

theorem shrunkFrontBy_shrunkFront (tracker : SlotTracker) (count : Nat) :
    tracker.shrunkFront.shrunkFrontBy count = tracker.shrunkFrontBy (count + 1) := by
  simp only [shrunkFront, shrunkFrontBy, after, Cursor.forward_forward, Nat.sub_sub,
    Nat.add_comm count 1]

namespace Valid

theorem grownBackBy_zero (h : tracker.Valid) : tracker.grownBackBy 0 = tracker := by
  rw [SlotTracker.grownBackBy, Cursor.forward_zero h.next_lt]
  rfl

theorem shrunkFrontBy_zero (h : tracker.Valid) : tracker.shrunkFrontBy 0 = tracker := by
  rw [SlotTracker.shrunkFrontBy, Cursor.forward_zero h.first_lt]
  rfl

/-- Elements that fit are all added. -/
theorem moves_addLast (h : tracker.Valid) {count : Nat}
    (hfit : tracker.len + count ≤ tracker.maxLen) :
    tracker.moves (List.replicate count .addLast) =
      (List.replicate count true, tracker.grownBackBy count) := by
  induction count generalizing tracker with
  | zero =>
    rw [h.grownBackBy_zero]
    rfl
  | succ count ih =>
    have hroom : tracker.len ≠ tracker.maxLen := by omega
    have hmove : tracker.move .addLast = (true, tracker.grownBack) :=
      h.addLast_eq.trans (if_neg hroom)
    have hfit' : tracker.grownBack.len + count ≤ tracker.grownBack.maxLen := by
      change tracker.len + 1 + count ≤ tracker.maxLen
      omega
    simp only [List.replicate_succ, moves_cons, hmove, ih (h.grownBack hroom) hfit',
      grownBackBy_grownBack]

/-- Elements that are held are all removed. -/
theorem moves_removeFirst (h : tracker.Valid) (hkeep : tracker.resetOnZero = false) {count : Nat}
    (hheld : count ≤ tracker.len) :
    tracker.moves (List.replicate count .removeFirst) =
      (List.replicate count true, tracker.shrunkFrontBy count) := by
  induction count generalizing tracker with
  | zero =>
    rw [h.shrunkFrontBy_zero]
    rfl
  | succ count ih =>
    have hsome : tracker.len ≠ 0 := by omega
    have hstays : tracker.shrunkFront.settle = tracker.shrunkFront := settle_eq_self (.inr hkeep)
    have hmove : tracker.move .removeFirst = (true, tracker.shrunkFront) :=
      (h.removeFirst_eq.trans (if_neg hsome)).trans (congrArg (Prod.mk true) hstays)
    have hheld' : count ≤ tracker.shrunkFront.len := Nat.le_sub_one_of_lt hheld
    simp only [List.replicate_succ, moves_cons, hmove, ih (h.shrunkFront hsome) hkeep hheld',
      shrunkFrontBy_shrunkFront]

theorem shrunkFrontBy (h : tracker.Valid) {count : Nat} (hheld : count ≤ tracker.len) :
    (tracker.shrunkFrontBy count).Valid := by
  have hlen := h.len_le
  refine ⟨Cursor.forward_lt h.capacity_pos _ _, Nat.le_trans (Nat.sub_le _ _) hlen, ?_⟩
  change tracker.next = Cursor.forward tracker.capacity
    (Cursor.forward tracker.capacity tracker.first count) (tracker.len - count)
  rw [Cursor.forward_forward, Nat.add_sub_cancel' hheld, h.next_eq]

end Valid

end SlotTracker

namespace ByteRing

variable {ring left : ByteRing} {added removed : Nat}

/-! ## Changes -/

theorem Valid.tracker (h : ring.Valid) : ring.tracker.Valid where
  first_lt := h.readPos_lt
  len_le := h.len_le
  next_eq := h.writePos_eq

/-- A tracker that makes one move for every byte goes where the ring goes. The bytes that are removed
come first: what is taken in may need their slots. -/
theorem Shifted.moves_tracker (h : ring.Shifted added removed left) (hring : ring.Valid) :
    ring.tracker.moves (List.replicate removed .removeFirst ++ List.replicate added .addLast) =
      (List.replicate removed true ++ List.replicate added true, left.tracker) := by
  have hleft := h.leads.valid hring
  have hsize := h.leads.size_eq
  have hshrunk := hring.tracker.moves_removeFirst rfl h.removed_le
  have hfit : (ring.tracker.shrunkFrontBy removed).len + added ≤
      (ring.tracker.shrunkFrontBy removed).maxLen := by
    have hlen := hleft.len_le
    have hsum := h.len_add
    have hle := h.removed_le
    change ring.len - removed + added ≤ ring.capacity
    rw [h.leads.capacity_eq] at hlen
    omega
  have hgrown := (hring.tracker.shrunkFrontBy h.removed_le).moves_addLast hfit
  have hlast : (ring.tracker.shrunkFrontBy removed).grownBackBy added = left.tracker := by
    have hsum := h.len_add
    have hle := h.removed_le
    have hlen : ring.len - removed + added = left.len := by omega
    simp only [tracker, SlotTracker.shrunkFrontBy, SlotTracker.grownBackBy, hsize, h.readPos_eq,
      h.writePos_eq, hlen]
  rw [SlotTracker.moves_append, hshrunk, hgrown, hlast]

theorem Valid.moves_tracker (h : ring.Valid) (change : Update) :
    ∃ count, ring.tracker.moves (change.moves (ring.update change).1) =
      (List.replicate count true, (ring.update change).2.tracker) := by
  by_cases hclear : change = .clear
  · subst hclear
    exact ⟨1, rfl⟩
  · cases hupdate : (ring.update change).1 with
    | error fault =>
      rw [h.update_of_error hupdate]
      exact ⟨0, rfl⟩
    | ok handed =>
      have hshifted := h.shifted_update hclear (hupdate ▸ rfl)
      refine ⟨change.removes + change.adds, ?_⟩
      simp only [Update.moves, if_neg hclear, hshifted.moves_tracker h,
        List.replicate_append_replicate]

theorem mirror_cons (ring : ByteRing) (change : Update) (changes : List Update) :
    ring.mirror (change :: changes) =
      change.moves (ring.update change).1 ++ (ring.update change).2.mirror changes := rfl

/-- After a run of changes the tracker is the one of the ring that is left. -/
theorem Valid.moves_mirror (h : ring.Valid) (changes : List Update) :
    ∃ count, ring.tracker.moves (ring.mirror changes) =
      (List.replicate count true, (ring.updates changes).2.tracker) := by
  induction changes generalizing ring with
  | nil => exact ⟨0, rfl⟩
  | cons change changes ih =>
    obtain ⟨first, hfirst⟩ := h.moves_tracker change
    obtain ⟨rest, hrest⟩ := ih (Leads.of_moved (h.moved_update change) |>.valid h)
    refine ⟨first + rest, ?_⟩
    rw [mirror_cons, SlotTracker.moves_append, hfirst, hrest, List.replicate_append_replicate]
    rfl

/-! ## What both tell -/

/-- A slot is the one of the byte `index` places after the oldest one. -/
structure Keeps (ring : ByteRing) (slot index : Nat) : Prop where
  slot_eq : slot = ring.slot index
  read : ∃ byte, ring.storage[slot]? = some byte ∧ ring.get index = .ok byte

theorem Valid.keeps (h : ring.Valid) {index : Nat} (hindex : index < ring.len) :
    ring.Keeps (ring.slot index) index := by
  have hslot := slot_lt h.size_pos index
  have hlen := h.len_le
  refine ⟨rfl, ring.storage[ring.slot index], Array.getElem?_eq_getElem hslot, ?_⟩
  rw [get, if_neg (by omega), if_neg (by omega), Array.getD_eq_getD_getElem?,
    Array.getElem?_eq_getElem hslot, Option.getD_some]

/-- What a ring and a tracker tell alike, and which slots of the ring the tracker names. -/
structure InStep (ring : ByteRing) (tracker : SlotTracker) : Prop where
  first_eq : tracker.first = ring.readPos
  next_eq : tracker.next = ring.writePos
  len_eq : tracker.len = ring.len
  maxLen_eq : tracker.maxLen = ring.capacity
  isEmpty_eq : tracker.isEmpty = ring.isEmpty
  isFull_eq : tracker.isFull = ring.isFull
  push_isOk : ∀ byte, (ring.push byte).1.isOk = tracker.addLast.1
  pop_isOk : ring.pop.1.isOk = tracker.removeFirst.1
  oldest : ring.isEmpty = false → ∃ slot, tracker.firstSlot? = some slot ∧ ring.Keeps slot 0
  newest : ring.isEmpty = false →
    ∃ slot, tracker.lastSlot? = some slot ∧ ring.Keeps slot (ring.len - 1)
  /-- The tracker names the slot that the next byte is written to. -/
  spare : ring.isFull = false → ∃ slot < ring.storage.size, tracker.nextLast? = some slot ∧
    ∀ byte, (ring.push byte).2.storage = ring.storage.setIfInBounds slot byte

theorem Valid.inStep (h : ring.Valid) : ring.InStep ring.tracker where
  first_eq := rfl
  next_eq := rfl
  len_eq := rfl
  maxLen_eq := rfl
  isEmpty_eq := h.tracker.isEmpty_eq
  isFull_eq := h.tracker.isFull_eq
  push_isOk byte := by
    have hfull : ring.tracker.isFull = ring.isFull := h.tracker.isFull_eq
    rw [push, SlotTracker.addLast, hfull]
    split <;> rfl
  pop_isOk := by
    have hempty : ring.tracker.isEmpty = ring.isEmpty := h.tracker.isEmpty_eq
    rw [pop, SlotTracker.removeFirst, hempty]
    split <;> rfl
  oldest hsome := by
    have hlen := isEmpty_eq_false_iff.1 hsome
    exact ⟨_, h.tracker.firstSlot?_eq.trans (if_neg hlen), h.keeps (Nat.pos_of_ne_zero hlen)⟩
  newest hsome := by
    have hlen := isEmpty_eq_false_iff.1 hsome
    exact ⟨_, h.tracker.lastSlot?_eq.trans (if_neg hlen), h.keeps (Nat.sub_one_lt hlen)⟩
  spare hroom := by
    have hlen := isFull_eq_false_iff.1 hroom
    refine ⟨ring.writePos, h.writePos_lt, ?_, ?_⟩
    · rw [h.writePos_eq]
      exact h.tracker.nextLast?_eq.trans (if_neg hlen)
    · intro byte
      rw [push, hroom]
      rfl

/-- A ring of `capacity` bytes and a tracker of one slot more are built together, and through every
run of changes they stay in step: the tracker, moved once for every byte, is never refused. -/
theorem mirror_stays_in_step {memory : Memory} {capacity : Nat} (hpos : 1 ≤ capacity)
    (hmemory : memory.reserve (capacity + 1) = .ok ()) :
    ∃ (ring : ByteRing) (tracker : SlotTracker),
      withCapacity memory capacity = .ok ring ∧
      SlotTracker.ofCapacity (capacity + 1) = .ok tracker ∧
      ∀ changes, (∀ done ∈ (tracker.moves (ring.mirror changes)).1, done = true) ∧
        (ring.updates changes).2.InStep (tracker.moves (ring.mirror changes)).2 := by
  have hvalid := valid_blank hpos
  have hring : withCapacity memory capacity = .ok (blank capacity) := by
    rw [withCapacity_eq, if_neg (Nat.one_le_iff_ne_zero.1 hpos), hmemory]
    rfl
  have htracker : SlotTracker.ofCapacity (capacity + 1) = .ok (blank capacity).tracker := by
    simp [SlotTracker.ofCapacity, SlotTracker.build, tracker, blank, Cursor.forward]
  refine ⟨_, _, hring, htracker, ?_⟩
  intro changes
  obtain ⟨count, hmoves⟩ := hvalid.moves_mirror changes
  rw [hmoves]
  constructor
  · intro done hdone
    exact (List.mem_replicate.1 hdone).2
  · exact (hvalid.updates_fifo changes).2.1.inStep

/-- A ring of two bytes is filled, loses one byte and takes another one in, which goes round the end;
one more is refused. The tracker makes four moves and names slot 1 for the oldest byte and slot 2
for the newest. -/
theorem mirror_stays_in_step_wrapped :
    1 ≤ 2 ∧ Memory.ordinary.reserve (2 + 1) = .ok () ∧
      (blank 2).mirror [.pushSlice [7, 8], .pop, .push 9, .push 10] =
        [.addLast, .addLast, .removeFirst, .addLast] ∧
      (blank 2).tracker.moves [.addLast, .addLast, .removeFirst, .addLast] =
        ([true, true, true, true], ⟨3, 1, 0, 2, {}⟩) ∧
      ((blank 2).updates [.pushSlice [7, 8], .pop, .push 9, .push 10]).2.InStep
        ⟨3, 1, 0, 2, {}⟩ := by
  have hmemory : Memory.ordinary.reserve (2 + 1) = .ok () := by decide
  obtain ⟨ring, tracker, hring, htracker, hrun⟩ :=
    mirror_stays_in_step (by decide : 1 ≤ 2) hmemory
  cases hring
  cases htracker
  exact ⟨by decide, hmemory, rfl, rfl, (hrun [.pushSlice [7, 8], .pop, .push 9, .push 10]).2⟩

end ByteRing

end CyclicQueue
