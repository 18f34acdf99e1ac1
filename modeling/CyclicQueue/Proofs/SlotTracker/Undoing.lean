import CyclicQueue.Proofs.SlotTracker.Cursors

/-!
# Moves that undo each other and moves that swap

A move at one end is taken back by the opposite move at that end, and moves at different ends can be
made in either order. This fails only near an empty tracker: the first element of all lands on the
anchor from either end, and an emptied tracker may go back to slot 0.
-/

namespace CyclicQueue.SlotTracker

variable {tracker : SlotTracker}

/-- Both moves are accepted, and the second one restores the tracker. -/
def Undoes (tracker : SlotTracker) (step back : Move) : Prop :=
  tracker.moves [step, back] = ([true, true], tracker)

/-- Both moves are accepted in either order and leave the same tracker. -/
def Swaps (tracker : SlotTracker) (step other : Move) : Prop :=
  ∃ left, tracker.moves [step, other] = ([true, true], left) ∧
    tracker.moves [other, step] = ([true, true], left)

theorem moves_pair {step other : Move} {between left : SlotTracker}
    (h : tracker.move step = (true, between)) (h' : between.move other = (true, left)) :
    tracker.moves [step, other] = ([true, true], left) := by
  simp only [moves, h, h']

/-! ## Growing and shrinking -/

theorem Valid.shrunkBack_grownBack (h : tracker.Valid) :
    tracker.grownBack.shrunkBack = tracker := by
  have hnext : tracker.before (tracker.after tracker.next) = tracker.next :=
    Cursor.back_forward h.next_lt h.capacity_pos
  change { tracker with next := tracker.before (tracker.after tracker.next) } = tracker
  rw [hnext]

theorem Valid.shrunkFront_grownFront (h : tracker.Valid) :
    tracker.grownFront.shrunkFront = tracker := by
  have hfirst : tracker.after (tracker.before tracker.first) = tracker.first :=
    Cursor.forward_back h.first_lt h.capacity_pos
  change { tracker with first := tracker.after (tracker.before tracker.first) } = tracker
  rw [hfirst]

theorem Valid.grownBack_shrunkBack (h : tracker.Valid) (hsome : tracker.len ≠ 0) :
    tracker.shrunkBack.grownBack = tracker := by
  have hnext : tracker.after (tracker.before tracker.next) = tracker.next :=
    Cursor.forward_back h.next_lt h.capacity_pos
  change { tracker with
    next := tracker.after (tracker.before tracker.next), len := tracker.len - 1 + 1 } = tracker
  rw [hnext, Nat.sub_add_cancel (Nat.pos_of_ne_zero hsome)]

theorem Valid.grownFront_shrunkFront (h : tracker.Valid) (hsome : tracker.len ≠ 0) :
    tracker.shrunkFront.grownFront = tracker := by
  have hfirst : tracker.before (tracker.after tracker.first) = tracker.first :=
    Cursor.back_forward h.first_lt h.capacity_pos
  change { tracker with
    first := tracker.before (tracker.after tracker.first), len := tracker.len - 1 + 1 } = tracker
  rw [hfirst, Nat.sub_add_cancel (Nat.pos_of_ne_zero hsome)]

theorem grownBack_shrunkFront (hsome : tracker.len ≠ 0) :
    tracker.shrunkFront.grownBack = tracker.grownBack.shrunkFront := by
  change { tracker.grownBack.shrunkFront with len := tracker.len - 1 + 1 } = _
  rw [Nat.sub_add_cancel (Nat.pos_of_ne_zero hsome)]
  rfl

theorem grownFront_shrunkBack (hsome : tracker.len ≠ 0) :
    tracker.shrunkBack.grownFront = tracker.grownFront.shrunkBack := by
  change { tracker.grownFront.shrunkBack with len := tracker.len - 1 + 1 } = _
  rw [Nat.sub_add_cancel (Nat.pos_of_ne_zero hsome)]
  rfl

/-- An empty tracker that can come about already stands where its options want it. -/
theorem Reachable.settle_eq (h : tracker.Reachable) : tracker.settle = tracker := by
  by_cases hdrained : tracker.len = 0 ∧ tracker.resetOnZero = true
  · obtain ⟨hfirst, hnext⟩ := h.fitted.origin hdrained.2 hdrained.1
    rw [settle, if_pos hdrained]
    obtain ⟨capacity, first, next, len, options⟩ := tracker
    obtain rfl : first = 0 := hfirst
    obtain rfl : next = 0 := hnext
    obtain rfl : len = 0 := hdrained.1
    rfl
  · rw [settle, if_neg hdrained]

/-! ## Single moves -/

namespace Valid

theorem move_addLast (h : tracker.Valid) (hroom : tracker.len ≠ tracker.maxLen) :
    tracker.move .addLast = (true, tracker.grownBack) := by
  rw [SlotTracker.move, h.addLast_eq, if_neg hroom]

theorem move_addFirst_of_empty (h : tracker.Valid) (hroom : tracker.len ≠ tracker.maxLen)
    (hzero : tracker.len = 0) : tracker.move .addFirst = (true, tracker.grownBack) := by
  rw [SlotTracker.move, h.addFirst_eq, if_neg hroom, if_pos hzero]

theorem move_addFirst (h : tracker.Valid) (hroom : tracker.len ≠ tracker.maxLen)
    (hsome : tracker.len ≠ 0) : tracker.move .addFirst = (true, tracker.grownFront) := by
  rw [SlotTracker.move, h.addFirst_eq, if_neg hroom, if_neg hsome]

theorem move_removeFirst (h : tracker.Valid) (hsome : tracker.len ≠ 0) :
    tracker.move .removeFirst = (true, tracker.shrunkFront.settle) := by
  rw [SlotTracker.move, h.removeFirst_eq, if_neg hsome]

theorem move_removeLast (h : tracker.Valid) (hsome : tracker.len ≠ 0) :
    tracker.move .removeLast = (true, tracker.shrunkBack.settle) := by
  rw [SlotTracker.move, h.removeLast_eq, if_neg hsome]

/-- A removal that leaves elements moves one cursor only. -/
theorem move_removeFirst_of_two (h : tracker.Valid) (htwo : 2 ≤ tracker.len) :
    tracker.move .removeFirst = (true, tracker.shrunkFront) := by
  have hleft : tracker.shrunkFront.len ≠ 0 := by
    change tracker.len - 1 ≠ 0
    omega
  rw [h.move_removeFirst (by omega), settle_eq_self (.inl hleft)]

theorem move_removeLast_of_two (h : tracker.Valid) (htwo : 2 ≤ tracker.len) :
    tracker.move .removeLast = (true, tracker.shrunkBack) := by
  have hleft : tracker.shrunkBack.len ≠ 0 := by
    change tracker.len - 1 ≠ 0
    omega
  rw [h.move_removeLast (by omega), settle_eq_self (.inl hleft)]

/-- After one removal there is room. -/
theorem pred_len_ne_maxLen (h : tracker.Valid) (hsome : tracker.len ≠ 0) :
    tracker.len - 1 ≠ tracker.maxLen := by
  have hle := h.len_le
  omega

end Valid

/-! ## Taking a move back -/

/-- Both cursors one slot further on. -/
def passedOn (tracker : SlotTracker) : SlotTracker :=
  { tracker with first := tracker.after tracker.first, next := tracker.after tracker.next }

namespace Valid

theorem addFirst_removeFirst_of_empty (h : tracker.Valid) (hroom : tracker.len ≠ tracker.maxLen)
    (hzero : tracker.len = 0) :
    tracker.moves [.addFirst, .removeFirst] = ([true, true], tracker.passedOn.settle) :=
  moves_pair (h.move_addFirst_of_empty hroom hzero)
    ((h.grownBack hroom).move_removeFirst (Nat.succ_ne_zero _))

theorem passedOn_ne_self (h : tracker.Valid) (hroom : tracker.len ≠ tracker.maxLen) :
    tracker.passedOn ≠ tracker := by
  intro heq
  have hle := h.len_le
  have hmax : tracker.maxLen = tracker.capacity - 1 := rfl
  have hfirst : tracker.slotAt 1 = tracker.slotAt 0 :=
    (congrArg SlotTracker.first heq).trans h.slotAt_zero.symm
  cases h.slotAt_injective (by omega) h.capacity_pos hfirst

theorem removeLast_undone (h : tracker.Valid) (htwo : 2 ≤ tracker.len) :
    tracker.Undoes .removeLast .addLast := by
  have hsome : tracker.len ≠ 0 := by omega
  have hback := (h.shrunkBack hsome).move_addLast (h.pred_len_ne_maxLen hsome)
  rw [h.grownBack_shrunkBack hsome] at hback
  exact moves_pair (h.move_removeLast_of_two htwo) hback

theorem removeFirst_undone (h : tracker.Valid) (htwo : 2 ≤ tracker.len) :
    tracker.Undoes .removeFirst .addFirst := by
  have hsome : tracker.len ≠ 0 := by omega
  have hleft : tracker.len - 1 ≠ 0 := by omega
  have hback := (h.shrunkFront hsome).move_addFirst (h.pred_len_ne_maxLen hsome) hleft
  rw [h.grownFront_shrunkFront hsome] at hback
  exact moves_pair (h.move_removeFirst_of_two htwo) hback

end Valid

namespace Reachable

theorem addLast_undone (h : tracker.Reachable) (hroom : tracker.len ≠ tracker.maxLen) :
    tracker.Undoes .addLast .removeLast := by
  have hback := (h.valid.grownBack hroom).move_removeLast (Nat.succ_ne_zero _)
  rw [h.valid.shrunkBack_grownBack, h.settle_eq] at hback
  exact moves_pair (h.valid.move_addLast hroom) hback

theorem addFirst_undone (h : tracker.Reachable) (hroom : tracker.len ≠ tracker.maxLen)
    (hsome : tracker.len ≠ 0) : tracker.Undoes .addFirst .removeFirst := by
  have hback := (h.valid.grownFront hroom).move_removeFirst (Nat.succ_ne_zero _)
  rw [h.valid.shrunkFront_grownFront, h.settle_eq] at hback
  exact moves_pair (h.valid.move_addFirst hroom hsome) hback

/-- An element that is added at the front of an empty tracker lands on the anchor, so its removal
moves the anchor on, unless the tracker starts again at slot 0. -/
theorem addFirst_undone_iff (h : tracker.Reachable) (hroom : tracker.len ≠ tracker.maxLen) :
    tracker.Undoes .addFirst .removeFirst ↔ tracker.len ≠ 0 ∨ tracker.resetOnZero = true := by
  by_cases hzero : tracker.len = 0
  · rw [Undoes, h.valid.addFirst_removeFirst_of_empty hroom hzero]
    cases hreset : tracker.resetOnZero with
    | true =>
      have hdrained : tracker.len = 0 ∧ tracker.resetOnZero = true := ⟨hzero, hreset⟩
      have hsettled : tracker.passedOn.settle = tracker.settle := by
        rw [settle, settle, if_pos hdrained]
        exact if_pos hdrained
      rw [hsettled, h.settle_eq]
      exact iff_of_true rfl (.inr rfl)
    | false =>
      have hsettled : tracker.passedOn.settle = tracker.passedOn :=
        settle_eq_self (.inr hreset)
      rw [hsettled]
      refine iff_of_false ?_ (by simp [hzero])
      exact fun heq => h.valid.passedOn_ne_self hroom (Prod.mk.inj heq).2
  · exact iff_of_true (h.addFirst_undone hroom hzero) (.inl hzero)

end Reachable

/-! ## Swapping two moves -/

namespace Valid

theorem removeFirst_swaps_removeLast (h : tracker.Valid) (htwo : 2 ≤ tracker.len) :
    tracker.Swaps .removeFirst .removeLast := by
  have hsome : tracker.len ≠ 0 := by omega
  have hleft : tracker.len - 1 ≠ 0 := by omega
  refine ⟨tracker.shrunkFront.shrunkBack.settle, ?_, ?_⟩
  · exact moves_pair (h.move_removeFirst_of_two htwo) ((h.shrunkFront hsome).move_removeLast hleft)
  · exact moves_pair (h.move_removeLast_of_two htwo) ((h.shrunkBack hsome).move_removeFirst hleft)

theorem addLast_swaps_removeFirst (h : tracker.Valid) (htwo : 2 ≤ tracker.len)
    (hroom : tracker.len ≠ tracker.maxLen) : tracker.Swaps .addLast .removeFirst := by
  have hsome : tracker.len ≠ 0 := by omega
  refine ⟨tracker.grownBack.shrunkFront, ?_, ?_⟩
  · exact moves_pair (h.move_addLast hroom)
      ((h.grownBack hroom).move_removeFirst_of_two (Nat.le_succ_of_le htwo))
  · rw [← grownBack_shrunkFront hsome]
    exact moves_pair (h.move_removeFirst_of_two htwo)
      ((h.shrunkFront hsome).move_addLast (h.pred_len_ne_maxLen hsome))

theorem addFirst_swaps_removeLast (h : tracker.Valid) (htwo : 2 ≤ tracker.len)
    (hroom : tracker.len ≠ tracker.maxLen) : tracker.Swaps .addFirst .removeLast := by
  have hsome : tracker.len ≠ 0 := by omega
  have hleft : tracker.len - 1 ≠ 0 := by omega
  refine ⟨tracker.grownFront.shrunkBack, ?_, ?_⟩
  · exact moves_pair (h.move_addFirst hroom hsome)
      ((h.grownFront hroom).move_removeLast_of_two (Nat.le_succ_of_le htwo))
  · rw [← grownFront_shrunkBack hsome]
    exact moves_pair (h.move_removeLast_of_two htwo)
      ((h.shrunkBack hsome).move_addFirst (h.pred_len_ne_maxLen hsome) hleft)

theorem addFirst_swaps_addLast (h : tracker.Valid) (hsome : tracker.len ≠ 0)
    (hroom : tracker.len + 2 ≤ tracker.maxLen) : tracker.Swaps .addFirst .addLast := by
  have hone : tracker.len ≠ tracker.maxLen := by omega
  have htwo : tracker.len + 1 ≠ tracker.maxLen := by omega
  refine ⟨tracker.grownFront.grownBack, ?_, ?_⟩
  · exact moves_pair (h.move_addFirst hone hsome) ((h.grownFront hone).move_addLast htwo)
  · exact moves_pair (h.move_addLast hone)
      ((h.grownBack hone).move_addFirst htwo (Nat.succ_ne_zero _))

end Valid

/-- On a tracker that can come about each move is taken back by the opposite move at its end, and
moves at different ends swap, as long as an element stays between the ends. Where it is the first
element of all that comes and goes, taking it out at the front leaves the anchor one slot further
on, unless the tracker starts again at slot 0.

Slots are any numbers here. The moves in words keep these laws on at most `2 ^ 63` slots, by
`WordTracker.Reachable.lawful`, and on no more, by `WordTracker.Beyond.not_lawful`. -/
theorem moves_undo_and_swap (h : tracker.Reachable) :
    (tracker.isFull = false → tracker.Undoes .addLast .removeLast ∧
      (tracker.Undoes .addFirst .removeFirst ↔
        tracker.isEmpty = false ∨ tracker.resetOnZero = true) ∧
      (tracker.isEmpty = true → tracker.resetOnZero = false →
        tracker.moves [.addFirst, .removeFirst] = ([true, true],
          { tracker with
            first := (tracker.first + 1) % tracker.capacity
            next := (tracker.first + 1) % tracker.capacity }))) ∧
    (2 ≤ tracker.len → tracker.Undoes .removeLast .addLast ∧
      tracker.Undoes .removeFirst .addFirst ∧ tracker.Swaps .removeFirst .removeLast ∧
      (tracker.isFull = false → tracker.Swaps .addLast .removeFirst ∧
        tracker.Swaps .addFirst .removeLast)) ∧
    (1 ≤ tracker.len → tracker.len + 2 ≤ tracker.maxLen → tracker.Swaps .addFirst .addLast) := by
  have hvalid := h.valid
  have hroom (hfull : tracker.isFull = false) : tracker.len ≠ tracker.maxLen := by
    simpa [hvalid.isFull_eq] using hfull
  refine ⟨?_, ?_, ?_⟩
  · intro hfull
    have hempty : tracker.isEmpty = false ↔ tracker.len ≠ 0 := by simp [hvalid.isEmpty_eq]
    refine ⟨h.addLast_undone (hroom hfull), ?_, ?_⟩
    · rw [hempty]
      exact h.addFirst_undone_iff (hroom hfull)
    · intro hnone hkeep
      have hmeet : tracker.next = tracker.first := (beq_iff_eq.1 hnone).symm
      have hsettled : tracker.passedOn.settle = tracker.passedOn := settle_eq_self (.inr hkeep)
      rw [hvalid.addFirst_removeFirst_of_empty (hroom hfull) (hvalid.isEmpty_iff.1 hnone),
        hsettled, passedOn, hmeet]
      rfl
  · intro htwo
    refine ⟨hvalid.removeLast_undone htwo, hvalid.removeFirst_undone htwo,
      hvalid.removeFirst_swaps_removeLast htwo, ?_⟩
    intro hfull
    exact ⟨hvalid.addLast_swaps_removeFirst htwo (hroom hfull),
      hvalid.addFirst_swaps_removeLast htwo (hroom hfull)⟩
  · intro hsome hspare
    exact hvalid.addFirst_swaps_addLast (Nat.one_le_iff_ne_zero.1 hsome) hspare

end CyclicQueue.SlotTracker
