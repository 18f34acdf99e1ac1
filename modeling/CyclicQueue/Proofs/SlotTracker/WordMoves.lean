import CyclicQueue.Proofs.SlotTracker.Cursors
import CyclicQueue.SlotTracker.WordSession

/-!
# Trackers in words and in numbers

On at most `2 ^ 63` slots a full turn from any slot is a word. So what is built, seen and moved in
words, where nothing is tested, is what is built, seen and moved of the same numbers.
-/

namespace CyclicQueue

namespace Machine

theorem toNat_ofNat {n : Nat} (h : n < wordLimit) : (UInt64.ofNat n).toNat = n :=
  UInt64.toNat_ofNat_of_lt h

theorem toNat_add_of_lt {a b : UInt64} (h : a.toNat + b.toNat < wordLimit) :
    (a + b).toNat = a.toNat + b.toNat := by
  rw [UInt64.toNat_add]
  exact Nat.mod_eq_of_lt h

theorem toNat_sub_of_le {a b : UInt64} (h : b.toNat ≤ a.toNat) :
    (a - b).toNat = a.toNat - b.toNat :=
  UInt64.toNat_sub_of_le _ _ (UInt64.le_iff_toNat_le.2 h)

theorem toNat_beq (a b : UInt64) : (a.toNat == b.toNat) = (a == b) := by
  rw [Bool.eq_iff_iff, beq_iff_eq, beq_iff_eq, UInt64.toNat_inj]

theorem toNat_eq_zero_iff {a : UInt64} : a.toNat = 0 ↔ a = 0 :=
  @UInt64.toNat_inj a 0

end Machine

namespace WordTracker

open Machine
open SlotTracker (Options Move)

variable {words : WordTracker}

/-! ## Cursors -/

/-- The step on from a slot adds up to a word on any number of slots. -/
theorem toNat_after {slot : UInt64} (hslot : slot.toNat < words.capacity.toNat) :
    (words.after slot).toNat = words.value.after slot.toNat := by
  have hword : slot.toNat + (1 : UInt64).toNat < wordLimit :=
    Nat.lt_of_le_of_lt hslot words.capacity.toNat_lt
  rw [after, UInt64.toNat_mod, toNat_add_of_lt hword]
  rfl

theorem toNat_before (h : words.value.InWords) {slot : UInt64}
    (hslot : slot.toNat < words.capacity.toNat) :
    (words.before slot).toNat = words.value.before slot.toNat := by
  have hturn : (slot + words.capacity).toNat = slot.toNat + words.capacity.toNat :=
    toNat_add_of_lt (h.slot_add_lt hslot (Nat.le_refl _))
  have hone : (1 : UInt64).toNat ≤ (slot + words.capacity).toNat := by
    rw [hturn]
    exact Nat.le_trans h.valid.capacity_pos (Nat.le_add_left _ _)
  rw [before, UInt64.toNat_mod, toNat_sub_of_le hone, hturn]
  rfl

theorem isEmpty_value (words : WordTracker) : words.value.isEmpty = words.isEmpty :=
  toNat_beq _ _

theorem isFull_value (h : words.value.InWords) : words.value.isFull = words.isFull := by
  rw [isFull, ← toNat_beq, toNat_after h.valid.next_lt]
  rfl

/-! ## Building -/

/-- Refused or not, a position in words is taken like the position of the same numbers. -/
theorem build_value {capacity first len : UInt64} (hcycle : capacity.toNat ≤ cycleLimit)
    (options : Options) :
    (build capacity first len options).map value =
      SlotTracker.build capacity.toNat first.toNat len.toNat options := by
  unfold build SlotTracker.build
  by_cases hzero : capacity = 0
  · rw [if_pos hzero, if_pos (toNat_eq_zero_iff.2 hzero)]
    rfl
  · have hpos : capacity.toNat ≠ 0 := mt toNat_eq_zero_iff.1 hzero
    rw [if_neg hzero, if_neg hpos]
    by_cases hfirst : capacity ≤ first
    · rw [if_pos hfirst, if_pos (UInt64.le_iff_toNat_le.1 hfirst)]
      rfl
    · have hslot : first.toNat < capacity.toNat :=
        Nat.not_le.1 (mt UInt64.le_iff_toNat_le.2 hfirst)
      have hmax : (capacity - 1).toNat = capacity.toNat - 1 :=
        toNat_sub_of_le (Nat.one_le_iff_ne_zero.2 hpos)
      rw [if_neg hfirst, if_neg (Nat.not_le.2 hslot)]
      by_cases hlen : capacity - 1 < len
      · rw [if_pos hlen, if_pos (hmax ▸ UInt64.lt_iff_toNat_lt.1 hlen)]
        rfl
      · have hfits : ¬ capacity.toNat - 1 < len.toNat := hmax ▸ mt UInt64.lt_iff_toNat_lt.2 hlen
        have hsum : (first + len).toNat = first.toNat + len.toNat := by
          apply toNat_add_of_lt
          rw [wordLimit_eq_cycles]
          omega
        rw [if_neg hlen, if_neg hfits, Except.map, value, UInt64.toNat_mod, hsum, Cursor.forward]

theorem exists_build {capacity first len : UInt64} {options : Options} {tracker : SlotTracker}
    (hcycle : capacity.toNat ≤ cycleLimit)
    (h : SlotTracker.build capacity.toNat first.toNat len.toNat options = .ok tracker) :
    ∃ words, build capacity first len options = .ok words ∧ words.value = tracker := by
  rw [← build_value hcycle] at h
  cases hbuilt : build capacity first len options with
  | error fault =>
    rw [hbuilt] at h
    cases h
  | ok words =>
    rw [hbuilt] at h
    exact ⟨words, rfl, Except.ok.inj h⟩

/-! ## Slots -/

theorem firstSlot?_value (words : WordTracker) :
    words.value.firstSlot? = words.firstSlot?.map UInt64.toNat := by
  rw [SlotTracker.firstSlot?, isEmpty_value, firstSlot?]
  cases words.isEmpty <;> rfl

theorem lastSlot?_value (h : words.value.InWords) :
    words.value.lastSlot? = words.lastSlot?.map UInt64.toNat := by
  rw [SlotTracker.lastSlot?, isEmpty_value, lastSlot?]
  cases words.isEmpty with
  | true => rfl
  | false => exact congrArg some (toNat_before h h.valid.next_lt).symm

theorem nextFirst?_value (h : words.value.InWords) :
    words.value.nextFirst? = words.nextFirst?.map UInt64.toNat := by
  rw [SlotTracker.nextFirst?, isFull_value h, isEmpty_value, nextFirst?]
  cases words.isFull with
  | true => rfl
  | false =>
    cases words.isEmpty with
    | true => rfl
    | false => exact congrArg some (toNat_before h h.valid.first_lt).symm

theorem nextLast?_value (h : words.value.InWords) :
    words.value.nextLast? = words.nextLast?.map UInt64.toNat := by
  rw [SlotTracker.nextLast?, isFull_value h, isEmpty_value, nextLast?]
  cases words.isFull with
  | true => rfl
  | false => cases words.isEmpty <;> rfl

theorem sight_value (h : words.value.InWords) : words.value.sight = words.sight := by
  rw [SlotTracker.sight, firstSlot?_value, lastSlot?_value h, nextFirst?_value h,
    nextLast?_value h]
  rfl

theorem observe_value (h : words.value.InWords) (done : Bool) :
    words.value.observe done = words.observe done := by
  rw [SlotTracker.observe, isEmpty_value, isFull_value h, sight_value h, observe]

/-! ## Moves -/

theorem value_settle (words : WordTracker) : words.settle.value = words.value.settle := by
  have hdrained : words.value.len = 0 ∧ words.value.resetOnZero = true ↔
      words.len = 0 ∧ words.options.resetOnZero = true :=
    and_congr_left' toNat_eq_zero_iff
  rw [settle, SlotTracker.settle]
  by_cases h : words.len = 0 ∧ words.options.resetOnZero = true
  · rw [if_pos h, if_pos (hdrained.2 h)]
    rfl
  · rw [if_neg h, if_neg (mt hdrained.1 h)]

theorem toNat_len_add_one (h : words.value.InWords) :
    (words.len + 1).toNat = words.value.len + 1 :=
  toNat_add_of_lt h.len_add_one_lt

theorem toNat_len_sub_one (hsome : words.value.len ≠ 0) :
    (words.len - 1).toNat = words.value.len - 1 :=
  toNat_sub_of_le (Nat.one_le_iff_ne_zero.2 hsome)

theorem value_set_first {first len : UInt64} {slot count : Nat} (hfirst : first.toNat = slot)
    (hlen : len.toNat = count) :
    value { words with first, len } = { words.value with first := slot, len := count } := by
  rw [← hfirst, ← hlen]
  rfl

theorem value_set_next {next len : UInt64} {slot count : Nat} (hnext : next.toNat = slot)
    (hlen : len.toNat = count) :
    value { words with next, len } = { words.value with next := slot, len := count } := by
  rw [← hnext, ← hlen]
  rfl

theorem value_grownBack (h : words.value.InWords) :
    value { words with next := words.after words.next, len := words.len + 1 } =
      words.value.grownBack :=
  value_set_next (toNat_after h.valid.next_lt) (toNat_len_add_one h)

theorem value_grownFront (h : words.value.InWords) :
    value { words with first := words.before words.first, len := words.len + 1 } =
      words.value.grownFront :=
  value_set_first (toNat_before h h.valid.first_lt) (toNat_len_add_one h)

theorem value_shrunkFront (h : words.value.InWords) (hsome : words.value.len ≠ 0) :
    value { words with first := words.after words.first, len := words.len - 1 } =
      words.value.shrunkFront :=
  value_set_first (toNat_after h.valid.first_lt) (toNat_len_sub_one hsome)

theorem value_shrunkBack (h : words.value.InWords) (hsome : words.value.len ≠ 0) :
    value { words with next := words.before words.next, len := words.len - 1 } =
      words.value.shrunkBack :=
  value_set_next (toNat_before h h.valid.next_lt) (toNat_len_sub_one hsome)

theorem addLast_value (h : words.value.InWords) :
    words.value.addLast = words.addLast.map id value := by
  rw [SlotTracker.addLast, isFull_value h, addLast]
  cases words.isFull with
  | true => rfl
  | false => exact congrArg (Prod.mk true) (value_grownBack h).symm

theorem addFirst_value (h : words.value.InWords) :
    words.value.addFirst = words.addFirst.map id value := by
  rw [SlotTracker.addFirst, isFull_value h, isEmpty_value, addFirst]
  cases words.isFull with
  | true => rfl
  | false =>
    cases words.isEmpty with
    | true => exact congrArg (Prod.mk true) (value_grownBack h).symm
    | false => exact congrArg (Prod.mk true) (value_grownFront h).symm

theorem removeFirst_value (h : words.value.InWords) :
    words.value.removeFirst = words.removeFirst.map id value := by
  -- told by the length, since a removal in words takes one off it
  rw [h.valid.removeFirst_eq, removeFirst, ← isEmpty_value, h.valid.isEmpty_eq]
  by_cases hzero : words.value.len = 0
  · rw [if_pos hzero, if_pos (decide_eq_true hzero)]
    rfl
  · rw [if_neg hzero, if_neg (mt decide_eq_true_iff.1 hzero), Prod.map, value_settle,
      value_shrunkFront h hzero]
    rfl

theorem removeLast_value (h : words.value.InWords) :
    words.value.removeLast = words.removeLast.map id value := by
  rw [h.valid.removeLast_eq, removeLast, ← isEmpty_value, h.valid.isEmpty_eq]
  by_cases hzero : words.value.len = 0
  · rw [if_pos hzero, if_pos (decide_eq_true hzero)]
    rfl
  · rw [if_neg hzero, if_neg (mt decide_eq_true_iff.1 hzero), Prod.map, value_settle,
      value_shrunkBack h hzero]
    rfl

/-- One move in words is the move of the numbers. -/
theorem move_value (h : words.value.InWords) (step : Move) :
    words.value.move step = (words.move step).map id value := by
  cases step with
  | addLast => exact addLast_value h
  | addFirst => exact addFirst_value h
  | removeFirst => exact removeFirst_value h
  | removeLast => exact removeLast_value h
  | reset => rfl

theorem move_inWords (h : words.value.InWords) (step : Move) :
    (words.move step).2.value.InWords := by
  have hmoved := h.move step
  rw [move_value h step] at hmoved
  exact hmoved

theorem moves_value (h : words.value.InWords) (steps : List Move) :
    words.value.moves steps = (words.moves steps).map id value := by
  induction steps generalizing words with
  | nil => rfl
  | cons step steps ih =>
    have hrest := ih (move_inWords h step)
    rw [SlotTracker.moves_cons, move_value h step, Prod.map_snd, hrest]
    rfl

theorem watch_value (h : words.value.InWords) (steps : List Move) :
    words.value.watch steps = words.watch steps := by
  induction steps generalizing words with
  | nil => rfl
  | cons step steps ih =>
    have hmoved := move_inWords h step
    simp only [SlotTracker.watch, move_value h step, Prod.map, ih hmoved, observe_value hmoved]
    rfl

end WordTracker

end CyclicQueue
