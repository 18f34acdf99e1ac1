import CyclicQueue.Proofs.SlotTracker.Moves
import CyclicQueue.SlotTracker.Guarded

/-!
# No move of a tracker is stopped

On a cycle of at most `2 ^ 63` slots a slot and a full turn add up to a word. So no sum of a move of
a valid tracker leaves the words, no difference falls below zero, and what is tested after a removal
holds.
-/

namespace CyclicQueue.SlotTracker

/-- A valid tracker whose slots add up to words. -/
structure InWords (tracker : SlotTracker) : Prop where
  valid : tracker.Valid
  capacity_le : tracker.capacity ≤ Machine.cycleLimit

namespace InWords

open Machine

variable {tracker : SlotTracker}

/-- From any slot on a full turn is a word. -/
theorem slot_add_lt (h : tracker.InWords) {slot count : Nat} (hslot : slot < tracker.capacity)
    (hcount : count ≤ tracker.capacity) : slot + count < wordLimit := by
  have hcycle := h.capacity_le
  rw [wordLimit_eq_cycles]
  omega

theorem first_add_len_lt (h : tracker.InWords) : tracker.first + tracker.len < wordLimit :=
  h.slot_add_lt h.valid.first_lt (Nat.le_of_lt h.valid.len_lt)

theorem len_add_one_lt (h : tracker.InWords) : tracker.len + 1 < wordLimit := by
  have hlen := h.valid.len_lt
  have hcycle := h.capacity_le
  have hword : cycleLimit + 1 < wordLimit := by decide
  omega

theorem settle (h : tracker.InWords) : tracker.settle.InWords where
  valid := h.valid.settle
  capacity_le := by
    rw [capacity_settle]
    exact h.capacity_le

theorem move (h : tracker.InWords) (step : Move) : (tracker.move step).2.InWords where
  valid := h.valid.move step
  capacity_le := by
    rw [capacity_move]
    exact h.capacity_le

theorem moves (h : tracker.InWords) (steps : List Move) : (tracker.moves steps).2.InWords where
  valid := h.valid.moves steps
  capacity_le := by
    rw [capacity_moves]
    exact h.capacity_le

end InWords

namespace Guarded

open Machine

variable {tracker : SlotTracker}

/-! ## Building -/

/-- Arguments that are no position of the cycle are refused before anything is summed up. -/
theorem build_eq {capacity : Nat} (hcycle : capacity ≤ cycleLimit) (first len : Nat)
    (options : Options) :
    build capacity first len options = .ok (SlotTracker.build capacity first len options) := by
  unfold build SlotTracker.build
  by_cases hzero : capacity = 0
  · rw [if_pos hzero, if_pos hzero]
    rfl
  · rw [if_neg hzero, if_neg hzero]
    by_cases hfirst : capacity ≤ first
    · rw [if_pos hfirst, if_pos hfirst]
      rfl
    · rw [if_neg hfirst, if_neg hfirst, sub_eq (Nat.one_le_iff_ne_zero.2 hzero), ok_bind]
      by_cases hlen : capacity - 1 < len
      · rw [if_pos hlen, if_pos hlen]
        rfl
      · have hword : first + len < wordLimit := by
          rw [wordLimit_eq_cycles]
          omega
        rw [if_neg hlen, if_neg hlen, add_eq hword, ok_bind, mod_eq (Nat.pos_of_ne_zero hzero)]
        rfl

/-! ## Cursors -/

theorem after_eq (h : tracker.InWords) {slot : Nat} (hslot : slot < tracker.capacity) :
    after tracker slot = .ok (tracker.after slot) :=
  forward_eq_of_cycle hslot h.valid.capacity_pos h.capacity_le

theorem before_eq (h : tracker.InWords) {slot : Nat} (hslot : slot < tracker.capacity) :
    before tracker slot = .ok (tracker.before slot) :=
  back_eq_of_cycle hslot h.valid.capacity_pos h.capacity_le

theorem isFull_eq (h : tracker.InWords) : isFull tracker = .ok tracker.isFull := by
  rw [isFull, after_eq h h.valid.next_lt, ok_bind]
  rfl

/-! ## Slots -/

theorem lastSlot?_eq (h : tracker.InWords) : lastSlot? tracker = .ok tracker.lastSlot? := by
  rw [lastSlot?, SlotTracker.lastSlot?]
  cases tracker.isEmpty with
  | true => rfl
  | false =>
    simp only [before_eq h h.valid.next_lt, ok_bind]
    rfl

theorem nextFirst?_eq (h : tracker.InWords) : nextFirst? tracker = .ok tracker.nextFirst? := by
  rw [nextFirst?, isFull_eq h, ok_bind, SlotTracker.nextFirst?]
  cases tracker.isFull with
  | true => rfl
  | false =>
    cases tracker.isEmpty with
    | true => rfl
    | false =>
      simp only [before_eq h h.valid.first_lt, ok_bind]
      rfl

theorem nextLast?_eq (h : tracker.InWords) : nextLast? tracker = .ok tracker.nextLast? := by
  rw [nextLast?, isFull_eq h, ok_bind, SlotTracker.nextLast?]
  cases tracker.isFull with
  | true => rfl
  | false => cases tracker.isEmpty <;> rfl

theorem sight_eq (h : tracker.InWords) : sight tracker = .ok tracker.sight := by
  rw [sight, lastSlot?_eq h, ok_bind, nextFirst?_eq h, ok_bind, nextLast?_eq h, ok_bind]
  rfl

/-! ## Moves -/

/-- The test after a removal goes through: emptied or not, the cursors lie `len` slots apart. -/
theorem settle_eq (h : tracker.InWords) : settle tracker = .ok tracker.settle := by
  have hsettled := h.settle
  have hapart : (tracker.settle.next ==
      (tracker.settle.first + tracker.settle.len) % tracker.settle.capacity) = true :=
    beq_iff_eq.2 hsettled.valid.next_eq
  simp only [settle, add_eq hsettled.first_add_len_lt, ok_bind,
    mod_eq hsettled.valid.capacity_pos, require_eq hapart]
  rfl

theorem addLast_eq (h : tracker.InWords) : addLast tracker = .ok tracker.addLast := by
  rw [addLast, isFull_eq h, ok_bind, SlotTracker.addLast]
  cases tracker.isFull with
  | true => rfl
  | false =>
    simp only [after_eq h h.valid.next_lt, add_eq h.len_add_one_lt, ok_bind]
    rfl

theorem addFirst_eq (h : tracker.InWords) : addFirst tracker = .ok tracker.addFirst := by
  rw [addFirst, isFull_eq h, ok_bind, SlotTracker.addFirst]
  cases tracker.isFull with
  | true => rfl
  | false =>
    cases tracker.isEmpty with
    | true =>
      simp only [after_eq h h.valid.next_lt, add_eq h.len_add_one_lt, ok_bind]
      rfl
    | false =>
      simp only [before_eq h h.valid.first_lt, add_eq h.len_add_one_lt, ok_bind]
      rfl

theorem removeFirst_eq (h : tracker.InWords) :
    removeFirst tracker = .ok tracker.removeFirst := by
  rw [removeFirst, SlotTracker.removeFirst]
  cases hempty : tracker.isEmpty with
  | true => rfl
  | false =>
    have hsome := h.valid.len_ne_zero hempty
    have hshrunk : tracker.shrunkFront.InWords := ⟨h.valid.shrunkFront hsome, h.capacity_le⟩
    have hsettle := settle_eq hshrunk
    unfold shrunkFront at hsettle
    simp only [after_eq h h.valid.first_lt, sub_eq (Nat.one_le_iff_ne_zero.2 hsome), ok_bind,
      hsettle]
    rfl

theorem removeLast_eq (h : tracker.InWords) : removeLast tracker = .ok tracker.removeLast := by
  rw [removeLast, SlotTracker.removeLast]
  cases hempty : tracker.isEmpty with
  | true => rfl
  | false =>
    have hsome := h.valid.len_ne_zero hempty
    have hshrunk : tracker.shrunkBack.InWords := ⟨h.valid.shrunkBack hsome, h.capacity_le⟩
    have hsettle := settle_eq hshrunk
    unfold shrunkBack at hsettle
    simp only [before_eq h h.valid.next_lt, sub_eq (Nat.one_le_iff_ne_zero.2 hsome), ok_bind,
      hsettle]
    rfl

theorem move_eq (h : tracker.InWords) (step : Move) :
    move tracker step = .ok (tracker.move step) := by
  cases step with
  | addLast => exact addLast_eq h
  | addFirst => exact addFirst_eq h
  | removeFirst => exact removeFirst_eq h
  | removeLast => exact removeLast_eq h
  | reset => rfl

theorem observe_eq (h : tracker.InWords) (done : Bool) :
    observe tracker done = .ok (tracker.observe done) := by
  rw [observe, isFull_eq h, ok_bind, sight_eq h]
  rfl

theorem watch_eq (h : tracker.InWords) (steps : List Move) :
    watch tracker steps = .ok (tracker.watch steps) := by
  induction steps generalizing tracker with
  | nil => rfl
  | cons step steps ih =>
    simp only [watch, move_eq h step, ok_bind, observe_eq (h.move step), ih (h.move step)]
    rfl

/-- Cursors that lie apart in a tracker of no elements would stop a removal. -/
example : settle ⟨4, 1, 3, 0, {}⟩ = .error .assertion := rfl

end Guarded

end CyclicQueue.SlotTracker
