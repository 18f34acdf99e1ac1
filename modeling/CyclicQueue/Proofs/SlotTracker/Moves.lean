import CyclicQueue.SlotTracker.Basic

/-!
# What the cursors of a slot tracker tell

The two cursors alone tell whether a tracker is empty or full, since one slot always stays free.
Counted from the first slot, an addition at the back occupies the slot `len` places on and one at
the front the slot before, and every move keeps cursors and length fitting together.
-/

namespace CyclicQueue.SlotTracker

variable {tracker : SlotTracker}

/-- The slot `index` places after the first one. -/
def slotAt (tracker : SlotTracker) (index : Nat) : Nat :=
  Cursor.forward tracker.capacity tracker.first index

namespace Valid

theorem capacity_pos (h : tracker.Valid) : 0 < tracker.capacity :=
  Nat.zero_lt_of_lt h.first_lt

theorem len_lt (h : tracker.Valid) : tracker.len < tracker.capacity := by
  have hlen := h.len_le
  have hpos := h.capacity_pos
  unfold maxLen at hlen
  omega

theorem slotAt_zero (h : tracker.Valid) : tracker.slotAt 0 = tracker.first :=
  Cursor.forward_zero h.first_lt

theorem slotAt_lt (h : tracker.Valid) (index : Nat) : tracker.slotAt index < tracker.capacity :=
  Cursor.forward_lt h.capacity_pos _ _

theorem slotAt_injective (h : tracker.Valid) {m n : Nat} (hm : m < tracker.capacity)
    (hn : n < tracker.capacity) (heq : tracker.slotAt m = tracker.slotAt n) : m = n :=
  Cursor.forward_injective h.first_lt hm hn heq

theorem next_eq_slotAt (h : tracker.Valid) : tracker.next = tracker.slotAt tracker.len :=
  h.next_eq

theorem next_lt (h : tracker.Valid) : tracker.next < tracker.capacity :=
  h.next_eq_slotAt ▸ h.slotAt_lt tracker.len

theorem after_next (h : tracker.Valid) :
    tracker.after tracker.next = tracker.slotAt (tracker.len + 1) := by
  rw [after, h.next_eq, Cursor.forward_forward, slotAt]

theorem before_next (h : tracker.Valid) {count : Nat} (hlen : tracker.len = count + 1) :
    tracker.before tracker.next = tracker.slotAt count := by
  rw [before, h.next_eq, hlen, ← Cursor.forward_forward]
  exact Cursor.back_forward (h.slotAt_lt count) h.capacity_pos

/-- The cursors meet exactly where nothing is held. -/
theorem isEmpty_iff (h : tracker.Valid) : tracker.isEmpty = true ↔ tracker.len = 0 := by
  rw [isEmpty, beq_iff_eq, ← h.slotAt_zero, h.next_eq_slotAt]
  constructor
  · intro heq
    exact (h.slotAt_injective h.capacity_pos h.len_lt heq).symm
  · intro hlen
    rw [hlen]

/-- The write cursor is right behind the first slot exactly where one slot is left. -/
theorem isFull_iff (h : tracker.Valid) : tracker.isFull = true ↔ tracker.len = tracker.maxLen := by
  have hlen := h.len_lt
  have hturn : tracker.slotAt tracker.capacity = tracker.first := by
    rw [slotAt, Cursor.forward, Nat.add_mod_right, Nat.mod_eq_of_lt h.first_lt]
  rw [isFull, beq_iff_eq, h.after_next, maxLen]
  constructor
  · intro heq
    rcases Nat.lt_or_ge (tracker.len + 1) tracker.capacity with hlt | hge
    · rw [← h.slotAt_zero] at heq
      cases h.slotAt_injective hlt h.capacity_pos heq
    · omega
  · intro heq
    have hlast : tracker.len + 1 = tracker.capacity := by omega
    rw [hlast, hturn]

theorem isEmpty_eq (h : tracker.Valid) : tracker.isEmpty = decide (tracker.len = 0) := by
  rw [Bool.eq_iff_iff, h.isEmpty_iff, decide_eq_true_iff]

theorem len_ne_zero (h : tracker.Valid) (hempty : tracker.isEmpty = false) : tracker.len ≠ 0 := by
  intro hzero
  rw [h.isEmpty_iff.2 hzero] at hempty
  cases hempty

theorem isFull_eq (h : tracker.Valid) :
    tracker.isFull = decide (tracker.len = tracker.maxLen) := by
  rw [Bool.eq_iff_iff, h.isFull_iff, decide_eq_true_iff]

/-! ## Slots -/

theorem firstSlot?_eq (h : tracker.Valid) :
    tracker.firstSlot? = if tracker.len = 0 then none else some (tracker.slotAt 0) := by
  rw [firstSlot?, h.isEmpty_eq, h.slotAt_zero]
  simp only [decide_eq_true_eq]

theorem lastSlot?_eq (h : tracker.Valid) :
    tracker.lastSlot? =
      if tracker.len = 0 then none else some (tracker.slotAt (tracker.len - 1)) := by
  rw [lastSlot?, h.isEmpty_eq]
  simp only [decide_eq_true_eq]
  split
  · rfl
  · next hsome => rw [h.before_next (Nat.sub_add_cancel (Nat.pos_of_ne_zero hsome)).symm]

theorem nextLast?_eq (h : tracker.Valid) :
    tracker.nextLast? =
      if tracker.len = tracker.maxLen then none else some (tracker.slotAt tracker.len) := by
  rw [nextLast?, h.isFull_eq, h.isEmpty_eq, h.next_eq_slotAt]
  simp only [decide_eq_true_eq]
  split
  · rfl
  · split
    · next hlen => rw [hlen, h.slotAt_zero]
    · rfl

theorem nextFirst?_eq (h : tracker.Valid) :
    tracker.nextFirst? =
      if tracker.len = tracker.maxLen then none
      else if tracker.len = 0 then some tracker.first
      else some (tracker.before tracker.first) := by
  rw [nextFirst?, h.isFull_eq, h.isEmpty_eq]
  simp only [decide_eq_true_eq]

/-! ## Moves -/

theorem reset (h : tracker.Valid) : tracker.reset.Valid :=
  ⟨h.capacity_pos, Nat.zero_le _, (Cursor.forward_zero h.capacity_pos).symm⟩

theorem settle (h : tracker.Valid) : tracker.settle.Valid := by
  unfold SlotTracker.settle
  split
  · exact h.reset
  · exact h

end Valid

/-- The number of slots and the options of a tracker. -/
def setting (tracker : SlotTracker) : Nat × Options :=
  (tracker.capacity, tracker.options)

theorem setting_settle (tracker : SlotTracker) : tracker.settle.setting = tracker.setting := by
  unfold settle
  split <;> rfl

theorem capacity_settle (tracker : SlotTracker) : tracker.settle.capacity = tracker.capacity :=
  congrArg Prod.fst tracker.setting_settle

theorem len_settle (tracker : SlotTracker) : tracker.settle.len = tracker.len := by
  unfold settle
  split
  · next hdrained => exact hdrained.1.symm
  · rfl

/-- A tracker goes back to slot 0 only where it is empty and its options say so. -/
theorem settle_eq_self (h : tracker.len ≠ 0 ∨ tracker.resetOnZero = false) :
    tracker.settle = tracker := by
  rw [settle, if_neg]
  rintro ⟨hzero, hreset⟩
  rcases h with hsome | hkeep
  · exact hsome hzero
  · rw [hkeep] at hreset
    cases hreset

/-- A tracker with one more element at the back. -/
def grownBack (tracker : SlotTracker) : SlotTracker :=
  { tracker with next := tracker.after tracker.next, len := tracker.len + 1 }

/-- A tracker with one more element at the front. -/
def grownFront (tracker : SlotTracker) : SlotTracker :=
  { tracker with first := tracker.before tracker.first, len := tracker.len + 1 }

/-- A tracker with one element less at the front. -/
def shrunkFront (tracker : SlotTracker) : SlotTracker :=
  { tracker with first := tracker.after tracker.first, len := tracker.len - 1 }

/-- A tracker with one element less at the back. -/
def shrunkBack (tracker : SlotTracker) : SlotTracker :=
  { tracker with next := tracker.before tracker.next, len := tracker.len - 1 }

/-- The answers of a move together with the tracker that each leaves. -/
inductive Moved (tracker : SlotTracker) : Bool × SlotTracker → Prop
  | refused : Moved tracker (false, tracker)
  | grownBack (hroom : tracker.isFull = false) : Moved tracker (true, tracker.grownBack)
  | grownFront (hroom : tracker.isFull = false) (hsome : tracker.isEmpty = false) :
    Moved tracker (true, tracker.grownFront)
  | shrunkFront (hsome : tracker.isEmpty = false) :
    Moved tracker (true, tracker.shrunkFront.settle)
  | shrunkBack (hsome : tracker.isEmpty = false) : Moved tracker (true, tracker.shrunkBack.settle)
  | reset : Moved tracker (true, tracker.reset)

theorem moved_move (tracker : SlotTracker) (step : Move) : tracker.Moved (tracker.move step) := by
  cases step with
  | addLast =>
    rw [move, addLast]
    cases hfull : tracker.isFull with
    | true => exact .refused
    | false => exact .grownBack hfull
  | addFirst =>
    rw [move, addFirst]
    cases hfull : tracker.isFull with
    | true => exact .refused
    | false =>
      cases hempty : tracker.isEmpty with
      | true => exact .grownBack hfull
      | false => exact .grownFront hfull hempty
  | removeFirst =>
    rw [move, removeFirst]
    cases hempty : tracker.isEmpty with
    | true => exact .refused
    | false => exact .shrunkFront hempty
  | removeLast =>
    rw [move, removeLast]
    cases hempty : tracker.isEmpty with
    | true => exact .refused
    | false => exact .shrunkBack hempty
  | reset => exact .reset

/-- No move changes the number of slots or the options. -/
theorem setting_move (tracker : SlotTracker) (step : Move) :
    (tracker.move step).2.setting = tracker.setting := by
  have hmoved := tracker.moved_move step
  generalize tracker.move step = result at hmoved ⊢
  cases hmoved with
  | refused => rfl
  | grownBack => rfl
  | grownFront => rfl
  | shrunkFront => exact setting_settle _
  | shrunkBack => exact setting_settle _
  | reset => rfl

theorem capacity_move (tracker : SlotTracker) (step : Move) :
    (tracker.move step).2.capacity = tracker.capacity :=
  congrArg Prod.fst (tracker.setting_move step)

theorem setting_moves (tracker : SlotTracker) (steps : List Move) :
    (tracker.moves steps).2.setting = tracker.setting := by
  induction steps generalizing tracker with
  | nil => rfl
  | cons step steps ih => exact (ih _).trans (tracker.setting_move step)

theorem capacity_moves (tracker : SlotTracker) (steps : List Move) :
    (tracker.moves steps).2.capacity = tracker.capacity :=
  congrArg Prod.fst (tracker.setting_moves steps)

theorem resetOnZero_moves (tracker : SlotTracker) (steps : List Move) :
    (tracker.moves steps).2.resetOnZero = tracker.resetOnZero :=
  congrArg (Options.resetOnZero ∘ Prod.snd) (tracker.setting_moves steps)

theorem moves_cons (tracker : SlotTracker) (step : Move) (steps : List Move) :
    tracker.moves (step :: steps) =
      ((tracker.move step).1 :: ((tracker.move step).2.moves steps).1,
        ((tracker.move step).2.moves steps).2) := rfl

/-- A run that is made in two parts. -/
theorem moves_append (tracker : SlotTracker) (steps more : List Move) :
    tracker.moves (steps ++ more) =
      ((tracker.moves steps).1 ++ ((tracker.moves steps).2.moves more).1,
        ((tracker.moves steps).2.moves more).2) := by
  induction steps generalizing tracker with
  | nil => rfl
  | cons step steps ih =>
    rw [List.cons_append, moves_cons, moves_cons, ih, List.cons_append]

theorem slotAt_shrunkFront (tracker : SlotTracker) (index : Nat) :
    tracker.shrunkFront.slotAt index = tracker.slotAt (index + 1) := by
  change Cursor.forward tracker.capacity (tracker.after tracker.first) index = _
  rw [after, Cursor.forward_forward, Nat.add_comm, slotAt]

namespace Valid

theorem addLast_eq (h : tracker.Valid) :
    tracker.addLast =
      if tracker.len = tracker.maxLen then (false, tracker) else (true, tracker.grownBack) := by
  rw [addLast, h.isFull_eq]
  simp only [decide_eq_true_eq]
  rfl

theorem addFirst_eq (h : tracker.Valid) :
    tracker.addFirst =
      if tracker.len = tracker.maxLen then (false, tracker)
      else (true, if tracker.len = 0 then tracker.grownBack else tracker.grownFront) := by
  rw [addFirst, h.isFull_eq, h.isEmpty_eq]
  simp only [decide_eq_true_eq]
  split
  · rfl
  · split <;> rfl

theorem removeFirst_eq (h : tracker.Valid) :
    tracker.removeFirst =
      if tracker.len = 0 then (false, tracker) else (true, tracker.shrunkFront.settle) := by
  rw [removeFirst, h.isEmpty_eq]
  simp only [decide_eq_true_eq]
  rfl

theorem removeLast_eq (h : tracker.Valid) :
    tracker.removeLast =
      if tracker.len = 0 then (false, tracker) else (true, tracker.shrunkBack.settle) := by
  rw [removeLast, h.isEmpty_eq]
  simp only [decide_eq_true_eq]
  rfl

theorem grownBack (h : tracker.Valid) (hroom : tracker.len ≠ tracker.maxLen) :
    tracker.grownBack.Valid := by
  have hlen := h.len_le
  refine ⟨h.first_lt, ?_, h.after_next⟩
  change tracker.len + 1 ≤ tracker.maxLen
  omega

/-- Counted from the slot before the first one, every slot lies one place further on. -/
theorem slotAt_grownFront (h : tracker.Valid) (index : Nat) :
    tracker.grownFront.slotAt (index + 1) = tracker.slotAt index := by
  change Cursor.forward tracker.capacity (tracker.before tracker.first) (index + 1) = _
  rw [Nat.add_comm, ← Cursor.forward_forward, before,
    Cursor.forward_back h.first_lt h.capacity_pos, slotAt]

theorem grownFront (h : tracker.Valid) (hroom : tracker.len ≠ tracker.maxLen) :
    tracker.grownFront.Valid := by
  have hlen := h.len_le
  refine ⟨Cursor.back_lt h.capacity_pos _ _, ?_, ?_⟩
  · change tracker.len + 1 ≤ tracker.maxLen
    omega
  · exact h.next_eq.trans (h.slotAt_grownFront tracker.len).symm

theorem shrunkFront (h : tracker.Valid) (hsome : tracker.len ≠ 0) :
    tracker.shrunkFront.Valid := by
  have hlen := h.len_le
  refine ⟨Cursor.forward_lt h.capacity_pos _ _, Nat.le_trans (Nat.sub_le _ _) hlen, ?_⟩
  change tracker.next = tracker.shrunkFront.slotAt (tracker.len - 1)
  rw [slotAt_shrunkFront, Nat.sub_add_cancel (Nat.pos_of_ne_zero hsome), h.next_eq_slotAt]

theorem shrunkBack (h : tracker.Valid) (hsome : tracker.len ≠ 0) : tracker.shrunkBack.Valid := by
  have hlen := h.len_le
  refine ⟨h.first_lt, Nat.le_trans (Nat.sub_le _ _) hlen, ?_⟩
  exact h.before_next (Nat.sub_add_cancel (Nat.pos_of_ne_zero hsome)).symm

/-! ## Moves that are possible -/

theorem nextLast?_eq_none_iff (h : tracker.Valid) :
    tracker.nextLast? = none ↔ tracker.len = tracker.maxLen := by
  rw [h.nextLast?_eq]
  split <;> simp_all

theorem nextFirst?_eq_none_iff (h : tracker.Valid) :
    tracker.nextFirst? = none ↔ tracker.len = tracker.maxLen := by
  rw [h.nextFirst?_eq]
  split
  · simp_all
  · split <;> simp_all

theorem firstSlot?_eq_none_iff (h : tracker.Valid) :
    tracker.firstSlot? = none ↔ tracker.len = 0 := by
  rw [h.firstSlot?_eq]
  split <;> simp_all

theorem lastSlot?_eq_none_iff (h : tracker.Valid) :
    tracker.lastSlot? = none ↔ tracker.len = 0 := by
  rw [h.lastSlot?_eq]
  split <;> simp_all

theorem addLast_eq_false_iff (h : tracker.Valid) :
    tracker.addLast.1 = false ↔ tracker.len = tracker.maxLen := by
  rw [h.addLast_eq]
  split <;> simp_all

theorem addFirst_eq_false_iff (h : tracker.Valid) :
    tracker.addFirst.1 = false ↔ tracker.len = tracker.maxLen := by
  rw [h.addFirst_eq]
  split <;> simp_all

theorem removeFirst_eq_false_iff (h : tracker.Valid) :
    tracker.removeFirst.1 = false ↔ tracker.len = 0 := by
  rw [h.removeFirst_eq]
  split <;> simp_all

theorem removeLast_eq_false_iff (h : tracker.Valid) :
    tracker.removeLast.1 = false ↔ tracker.len = 0 := by
  rw [h.removeLast_eq]
  split <;> simp_all

/-- The slot named before an addition at the back is the last one after it. -/
theorem lastSlot?_addLast (h : tracker.Valid) (hdone : tracker.addLast.1 = true) :
    tracker.addLast.2.lastSlot? = tracker.nextLast? := by
  have hroom : tracker.len ≠ tracker.maxLen := by
    intro hfull
    rw [h.addLast_eq_false_iff.2 hfull] at hdone
    cases hdone
  rw [h.addLast_eq, if_neg hroom, h.nextLast?_eq, if_neg hroom, (h.grownBack hroom).lastSlot?_eq]
  rfl

/-- The slot named before an addition at the front is the first one after it. -/
theorem firstSlot?_addFirst (h : tracker.Valid) (hdone : tracker.addFirst.1 = true) :
    tracker.addFirst.2.firstSlot? = tracker.nextFirst? := by
  have hroom : tracker.len ≠ tracker.maxLen := by
    intro hfull
    rw [h.addFirst_eq_false_iff.2 hfull] at hdone
    cases hdone
  rw [h.addFirst_eq, if_neg hroom, h.nextFirst?_eq, if_neg hroom]
  by_cases hzero : tracker.len = 0
  · have hgrown := h.grownBack hroom
    rw [if_pos hzero, if_pos hzero, hgrown.firstSlot?_eq, hgrown.slotAt_zero]
    rfl
  · have hgrown := h.grownFront hroom
    rw [if_neg hzero, if_neg hzero, hgrown.firstSlot?_eq, hgrown.slotAt_zero]
    rfl

/-- Every move keeps cursors and length fitting together. -/
theorem move (h : tracker.Valid) (step : Move) : (tracker.move step).2.Valid := by
  cases step with
  | addLast =>
    simp only [SlotTracker.move, h.addLast_eq]
    split
    · exact h
    · next hroom => exact h.grownBack hroom
  | addFirst =>
    simp only [SlotTracker.move, h.addFirst_eq]
    split
    · exact h
    · next hroom =>
      simp only
      split
      · exact h.grownBack hroom
      · exact h.grownFront hroom
  | removeFirst =>
    simp only [SlotTracker.move, h.removeFirst_eq]
    split
    · exact h
    · next hsome => exact (h.shrunkFront hsome).settle
  | removeLast =>
    simp only [SlotTracker.move, h.removeLast_eq]
    split
    · exact h
    · next hsome => exact (h.shrunkBack hsome).settle
  | reset => exact h.reset

theorem moves (h : tracker.Valid) (steps : List Move) : (tracker.moves steps).2.Valid := by
  induction steps generalizing tracker with
  | nil => exact h
  | cons step steps ih => exact ih (h.move step)

end Valid

end CyclicQueue.SlotTracker
