import CyclicQueue.Proofs.SlotTracker.WordMoves

/-!
# How many slots words can number

On at most `2 ^ 63` slots no tested move of a tracker is ever stopped. On more slots the step back
from the last slot adds up to no word. The tested step is stopped there, and the untested one goes
astray.
-/

namespace CyclicQueue.WordTracker

open Machine
open SlotTracker (Options Move Recipe)

variable {words : WordTracker} {capacity : UInt64}

/-! ## The step back from the last slot -/

/-- The tested step back from the last of too many slots is stopped. -/
theorem before_last_overflows {tracker : SlotTracker} (hcycle : cycleLimit < tracker.capacity) :
    SlotTracker.Guarded.before tracker (tracker.capacity - 1) = .error .overflow := by
  have hslot : tracker.capacity - 1 < tracker.capacity := by omega
  have hsum : ¬ tracker.capacity - 1 + tracker.capacity < wordLimit := by
    rw [wordLimit_eq_cycles]
    omega
  have hone : 1 ≤ tracker.capacity := by omega
  rw [SlotTracker.Guarded.before, back, require_eq (decide_eq_true hslot), ok_bind,
    require_eq (decide_eq_true hone), ok_bind, add, if_neg hsum]
  rfl

/-- So the tested removal of an element there is stopped. -/
theorem removeLast_overflows {tracker : SlotTracker} (hcycle : cycleLimit < tracker.capacity)
    (hheld : tracker.isEmpty = false) (hnext : tracker.next = tracker.capacity - 1) :
    SlotTracker.Guarded.removeLast tracker = .error .overflow := by
  rw [SlotTracker.Guarded.removeLast, hheld, hnext, before_last_overflows hcycle]
  rfl

/-- The step back from slot 1 ends at slot 0, whatever the sum. -/
theorem before_one (words : WordTracker) : words.before 1 = 0 := by
  have hsum : 1 + words.capacity - 1 = words.capacity := by grind
  rw [before, hsum, UInt64.mod_self]

/-- More slots than words can number. -/
def Beyond (capacity : UInt64) : Prop :=
  cycleLimit < capacity.toNat

namespace Beyond

theorem not_iff : ¬ Beyond capacity ↔ capacity.toNat ≤ cycleLimit :=
  Nat.not_lt

theorem four_le (h : Beyond capacity) : 4 ≤ capacity.toNat :=
  Nat.le_trans (by decide) (Nat.le_of_lt h)

theorem toNat_sub (h : Beyond capacity) {n : UInt64} (hn : n.toNat ≤ 4) :
    (capacity - n).toNat = capacity.toNat - n.toNat :=
  toNat_sub_of_le (Nat.le_trans hn h.four_le)

theorem mod_eq (h : Beyond capacity) {n : UInt64} (hn : n.toNat < 4) : n % capacity = n :=
  UInt64.mod_eq_of_lt (UInt64.lt_iff_toNat_lt.2 (Nat.lt_of_lt_of_le hn h.four_le))

theorem ne_last (h : Beyond capacity) {n : UInt64} (hn : n.toNat < 3) : n ≠ capacity - 1 := by
  have hfour := h.four_le
  rw [ne_eq, ← UInt64.toNat_inj, h.toNat_sub (by decide), UInt64.toNat_one]
  omega

theorem last_mod (h : Beyond capacity) : (capacity - 1) % capacity = capacity - 1 := by
  have hpos := h.four_le
  apply UInt64.mod_eq_of_lt
  rw [UInt64.lt_iff_toNat_lt, h.toNat_sub (by decide), UInt64.toNat_one]
  omega

theorem before_zero (h : Beyond words.capacity) : words.before 0 = words.capacity - 1 := by
  rw [before, UInt64.zero_add, h.last_mod]

/-- Untested, the step back from the last slot takes a full turn modulo the number of words. So it
ends as many slots too early as there are more words than slots. -/
theorem before_last_astray (h : Beyond words.capacity) :
    (words.before (words.capacity - 1)).toNat + (wordLimit - words.capacity.toNat) =
      words.capacity.toNat - 2 := by
  obtain ⟨size, hsize⟩ : ∃ size, words.capacity.toNat = size := ⟨_, rfl⟩
  have hcycle : cycleLimit < words.capacity.toNat := h
  have hlast := h.toNat_sub (n := 1) (by decide)
  have hword : size < wordLimit := hsize ▸ words.capacity.toNat_lt
  have hlimit : wordLimit = 2 * cycleLimit := wordLimit_eq_cycles
  rw [hsize] at hcycle hlast
  rw [UInt64.toNat_one] at hlast
  have hturn : (words.capacity - 1 + words.capacity).toNat = 2 * size - 1 - wordLimit := by
    rw [UInt64.toNat_add, hlast, hsize,
      show size - 1 + size = 2 * size - 1 - wordLimit + wordLimit by omega]
    exact (Nat.add_mod_right _ wordLimit).trans (Nat.mod_eq_of_lt (by omega))
  have hone : (1 : UInt64).toNat ≤ (words.capacity - 1 + words.capacity).toNat := by
    rw [hturn, UInt64.toNat_one]
    omega
  rw [before, UInt64.toNat_mod, toNat_sub_of_le hone, hturn, hsize, UInt64.toNat_one,
    Nat.mod_eq_of_lt (by omega)]
  omega

theorem last_but_one_lt (h : Beyond capacity) : (capacity - 2).toNat < capacity.toNat := by
  have hfour := h.four_le
  have hslot : (capacity - 2).toNat = capacity.toNat - 2 := h.toNat_sub (by decide)
  omega

theorem last_but_one_succ_mod (h : Beyond capacity) :
    (capacity - 2 + 1) % capacity = capacity - 1 := by
  have hsum : capacity - 2 + 1 = capacity - 1 := by grind
  rw [hsum, h.last_mod]

theorem before_last_ne (h : Beyond words.capacity) :
    words.before (words.capacity - 1) ≠ words.capacity - 2 := by
  intro heq
  have hastray := h.before_last_astray
  have hword : words.capacity.toNat < wordLimit := words.capacity.toNat_lt
  have hslot : (words.capacity - 2).toNat = words.capacity.toNat - 2 := h.toNat_sub (by decide)
  rw [heq, hslot] at hastray
  omega

end Beyond

/-- With one slot more than fit, the step back from the last slot ends at slot 0. -/
example : WordTracker.before ⟨9223372036854775809, 0, 0, 0, {}⟩ 9223372036854775808 = 0 := by
  decide

/-! ## Trackers that can come about -/

/-- Trackers that recipes and moves in words lead to. -/
inductive Reachable : WordTracker → Prop
  | made {recipe : Recipe} {words : WordTracker} (h : recipe.makeInWords = .ok words) :
    Reachable words
  | moved {words : WordTracker} (h : Reachable words) (step : Move) : Reachable (words.move step).2

theorem build_eq {first len : UInt64} (hfirst : first.toNat < capacity.toNat)
    (hlen : len.toNat ≤ capacity.toNat - 1) (options : Options) :
    build capacity first len options =
      .ok ⟨capacity, first, (first + len) % capacity, len, options⟩ := by
  have hpos : 1 ≤ capacity.toNat := Nat.one_le_of_lt hfirst
  have hzero : capacity ≠ 0 := mt toNat_eq_zero_iff.2 (Nat.one_le_iff_ne_zero.1 hpos)
  have hslot : ¬ capacity ≤ first := mt UInt64.le_iff_toNat_le.1 (Nat.not_le.2 hfirst)
  have hmax : (capacity - 1).toNat = capacity.toNat - 1 := toNat_sub_of_le hpos
  have hroom : ¬ capacity - 1 < len := by
    rw [UInt64.lt_iff_toNat_lt, hmax]
    exact Nat.not_lt.2 hlen
  rw [build, if_neg hzero, if_neg hslot, if_neg hroom]

theorem capacity_of_build {first len : UInt64} {options : Options}
    (h : build capacity first len options = .ok words) : words.capacity = capacity := by
  unfold build at h
  split at h
  · cases h
  · split at h
    · cases h
    · split at h
      · cases h
      · cases h
        rfl

theorem reachable_of_build {first len : UInt64} (h : build capacity first len {} = .ok words) :
    words.Reachable := by
  have hmake : (Recipe.withPosition capacity.toNat first.toNat len.toNat).makeInWords =
      .ok words := by
    simpa only [Recipe.makeInWords, UInt64.ofNat_toNat] using h
  exact .made hmake

theorem capacity_settle (words : WordTracker) : words.settle.capacity = words.capacity := by
  unfold settle
  split <;> rfl

theorem capacity_move (words : WordTracker) (step : Move) :
    (words.move step).2.capacity = words.capacity := by
  cases step with
  | addLast =>
    rw [move, addLast]
    split <;> rfl
  | addFirst =>
    rw [move, addFirst]
    split
    · rfl
    · split <;> rfl
  | removeFirst =>
    rw [move, removeFirst]
    split
    · rfl
    · exact capacity_settle _
  | removeLast =>
    rw [move, removeLast]
    split
    · rfl
    · exact capacity_settle _
  | reset => rfl

theorem value_of_build {first len : UInt64} {options : Options}
    (h : build capacity first len options = .ok words)
    (hcycle : words.capacity.toNat ≤ cycleLimit) :
    SlotTracker.build capacity.toNat first.toNat len.toNat options = .ok words.value := by
  rw [← build_value (capacity_of_build h ▸ hcycle), h]
  rfl

/-- On as many slots as words can number, the numbers come about with the words. -/
theorem Reachable.reachable_value (h : words.Reachable)
    (hcycle : words.capacity.toNat ≤ cycleLimit) : words.value.Reachable := by
  induction h with
  | @made recipe words hmade =>
    cases recipe with
    | ofCapacity capacity =>
      exact @SlotTracker.Reachable.made (.ofCapacity _) _ (value_of_build hmade hcycle)
    | withPosition capacity first len =>
      exact @SlotTracker.Reachable.made (.withPosition _ _ _) _ (value_of_build hmade hcycle)
    | withOptions capacity options =>
      exact @SlotTracker.Reachable.made (.withOptions _ _) _ (value_of_build hmade hcycle)
  | moved _ step ih =>
    rw [capacity_move] at hcycle
    have hreach := ih hcycle
    have hmoved := hreach.moved step
    rwa [move_value ⟨hreach.valid, hcycle⟩] at hmoved

theorem Reachable.inWords (h : words.Reachable) (hcycle : words.capacity.toNat ≤ cycleLimit) :
    words.value.InWords :=
  ⟨(h.reachable_value hcycle).valid, hcycle⟩

theorem Beyond.build_last_but_one (h : Beyond capacity) {len next : UInt64}
    (hlen : len.toNat ≤ 1) (hnext : (capacity - 2 + len) % capacity = next) :
    build capacity (capacity - 2) len {} = .ok ⟨capacity, capacity - 2, next, len, {}⟩ := by
  have hfour := h.four_le
  rw [build_eq h.last_but_one_lt (by omega), hnext]

/-- The tested moves are carried out, and leave what the moves in words leave, for all trackers of a
number of slots exactly up to `2 ^ 63` slots. -/
theorem tested_iff_capacity_le (capacity : UInt64) :
    (∀ words : WordTracker, words.Reachable → words.capacity = capacity → ∀ step : Move,
      SlotTracker.Guarded.move words.value step = .ok ((words.move step).map id value)) ↔
      capacity.toNat ≤ cycleLimit := by
  constructor
  · intro htested
    rw [← Beyond.not_iff]
    intro hbeyond
    have hbuilt := hbeyond.build_last_but_one (Nat.le_refl _) hbeyond.last_but_one_succ_mod
    have hheld : (value ⟨capacity, capacity - 2, capacity - 1, 1, {}⟩).isEmpty = false := by
      rw [isEmpty_value, isEmpty, beq_eq_false_iff_ne]
      grind
    have hlast : (capacity - 1).toNat = capacity.toNat - 1 := hbeyond.toNat_sub (by decide)
    have hstopped : SlotTracker.Guarded.removeLast
        (value ⟨capacity, capacity - 2, capacity - 1, 1, {}⟩) = .error .overflow :=
      removeLast_overflows hbeyond hheld hlast
    have hdone := htested _ (reachable_of_build hbuilt) rfl .removeLast
    rw [SlotTracker.Guarded.move, hstopped] at hdone
    cases hdone
  · rintro hcycle words hreach rfl step
    have hwords := hreach.inWords hcycle
    rw [SlotTracker.Guarded.move_eq hwords, move_value hwords]

end CyclicQueue.WordTracker
