import CyclicQueue.Proofs.SlotTracker.Limit
import CyclicQueue.Proofs.SlotTracker.Placement
import CyclicQueue.Proofs.SlotTracker.Undoing

/-!
# The laws of moves in words

On at most `2 ^ 63` slots, moves in words undo each other, swap, and do not depend on where a
tracker stands. On any larger number of slots they no longer do, since the step back from the last
slot goes astray.
-/

namespace CyclicQueue.WordTracker

open Machine
open SlotTracker (Options Move Recipe Follows)

variable {words : WordTracker} {capacity : UInt64}

/-! ## Taking moves back and swapping them -/

/-- Both moves are accepted, and the second one restores the tracker. -/
def Undoes (words : WordTracker) (step back : Move) : Prop :=
  words.moves [step, back] = ([true, true], words)

/-- Both moves are accepted in either order and leave the same tracker. -/
def Swaps (words : WordTracker) (step other : Move) : Prop :=
  ∃ left, words.moves [step, other] = ([true, true], left) ∧
    words.moves [other, step] = ([true, true], left)

/-- Each move is taken back by the opposite move at its end, and moves at different ends swap, as
long as an element stays between the ends. Where it is the first element of all that comes and goes,
taking it out at the front leaves the anchor one slot further on, unless the tracker starts again
at slot 0. -/
structure Lawful (words : WordTracker) : Prop where
  addLast_undone : words.isFull = false → words.Undoes .addLast .removeLast
  addFirst_undone_iff : words.isFull = false →
    (words.Undoes .addFirst .removeFirst ↔
      words.isEmpty = false ∨ words.options.resetOnZero = true)
  anchor_passed_on : words.isFull = false → words.isEmpty = true →
    words.options.resetOnZero = false →
    words.moves [.addFirst, .removeFirst] = ([true, true],
      { words with first := words.after words.first, next := words.after words.first })
  removeLast_undone : 2 ≤ words.len.toNat → words.Undoes .removeLast .addLast
  removeFirst_undone : 2 ≤ words.len.toNat → words.Undoes .removeFirst .addFirst
  removals_swap : 2 ≤ words.len.toNat → words.Swaps .removeFirst .removeLast
  addLast_swaps : 2 ≤ words.len.toNat → words.isFull = false → words.Swaps .addLast .removeFirst
  addFirst_swaps : 2 ≤ words.len.toNat → words.isFull = false → words.Swaps .addFirst .removeLast
  additions_swap : 1 ≤ words.len.toNat → words.len.toNat + 2 ≤ words.capacity.toNat - 1 →
    words.Swaps .addFirst .addLast

theorem value_inj {a b : WordTracker} : a.value = b.value ↔ a = b := by
  obtain ⟨capacity, first, next, len, options⟩ := a
  obtain ⟨capacity', first', next', len', options'⟩ := b
  simp only [value, SlotTracker.mk.injEq, WordTracker.mk.injEq, UInt64.toNat_inj]

theorem moves_value_eq_iff (h : words.value.InWords) {steps : List Move} {answers : List Bool}
    {left : WordTracker} :
    words.value.moves steps = (answers, left.value) ↔ words.moves steps = (answers, left) := by
  rw [moves_value h]
  obtain ⟨done, last⟩ := words.moves steps
  simp only [Prod.map, id, Prod.mk.injEq, value_inj]

theorem undoes_value_iff (h : words.value.InWords) {step back : Move} :
    words.value.Undoes step back ↔ words.Undoes step back :=
  moves_value_eq_iff h

theorem swaps_of_value (h : words.value.InWords) {step other : Move}
    (hswaps : words.value.Swaps step other) : words.Swaps step other := by
  obtain ⟨left, hleft, hright⟩ := hswaps
  obtain ⟨last, rfl⟩ : ∃ last : WordTracker, left = last.value := by
    rw [moves_value h] at hleft
    exact ⟨_, (congrArg Prod.snd hleft).symm⟩
  exact ⟨last, (moves_value_eq_iff h).1 hleft, (moves_value_eq_iff h).1 hright⟩

theorem Reachable.lawful (h : words.Reachable) (hcycle : words.capacity.toNat ≤ cycleLimit) :
    words.Lawful := by
  have hwords := h.inWords hcycle
  have hpassed : value { words with
      first := words.after words.first, next := words.after words.first } =
      { words.value with
        first := (words.value.first + 1) % words.value.capacity
        next := (words.value.first + 1) % words.value.capacity } := by
    have hfirst : (words.after words.first).toNat =
        (words.value.first + 1) % words.value.capacity :=
      toNat_after hwords.valid.first_lt
    rw [← hfirst]
    rfl
  obtain ⟨hadd, hremove, hboth⟩ := SlotTracker.moves_undo_and_swap (h.reachable_value hcycle)
  rw [isFull_value hwords, isEmpty_value] at hadd
  rw [isFull_value hwords] at hremove
  refine ⟨?_, ?_, ?_, ?_, ?_, ?_, ?_, ?_, ?_⟩
  · exact fun hfull => (undoes_value_iff hwords).1 (hadd hfull).1
  · exact fun hfull => (undoes_value_iff hwords).symm.trans (hadd hfull).2.1
  · intro hfull hempty hkeep
    apply (moves_value_eq_iff hwords).1
    rw [(hadd hfull).2.2 hempty hkeep, hpassed]
  · exact fun htwo => (undoes_value_iff hwords).1 (hremove htwo).1
  · exact fun htwo => (undoes_value_iff hwords).1 (hremove htwo).2.1
  · exact fun htwo => swaps_of_value hwords (hremove htwo).2.2.1
  · exact fun htwo hfull => swaps_of_value hwords ((hremove htwo).2.2.2 hfull).1
  · exact fun htwo hfull => swaps_of_value hwords ((hremove htwo).2.2.2 hfull).2
  · exact fun hsome hspare => swaps_of_value hwords (hboth hsome hspare)

theorem moves_addLast_removeLast (hfull : words.isFull = false) :
    words.moves [.addLast, .removeLast] =
      ([true, true], settle { words with next := words.before (words.after words.next) }) := by
  have hsome : isEmpty { words with next := words.after words.next, len := words.len + 1 } =
      false := by
    rw [isFull, beq_eq_false_iff_ne] at hfull
    exact beq_eq_false_iff_ne.2 hfull.symm
  simp only [moves, move, addLast, hfull, removeLast, hsome, Bool.false_eq_true, if_false,
    UInt64.add_sub_cancel]
  rfl

/-- On too many slots an element that is added at the back, from the last slot but one on, is not
taken back. -/
theorem Beyond.not_lawful (h : Beyond capacity) :
    ∃ words : WordTracker, words.Reachable ∧ words.capacity = capacity ∧ ¬ words.Lawful := by
  have hnext : (capacity - 2 + 0) % capacity = capacity - 2 := by
    rw [UInt64.add_zero, UInt64.mod_eq_of_lt (UInt64.lt_iff_toNat_lt.2 h.last_but_one_lt)]
  have hbuilt := h.build_last_but_one (Nat.zero_le _) hnext
  refine ⟨_, reachable_of_build hbuilt, rfl, ?_⟩
  intro hlaws
  have hafter : after ⟨capacity, capacity - 2, capacity - 2, 0, {}⟩ (capacity - 2) =
      capacity - 1 := by
    simp only [after, h.last_but_one_succ_mod]
  have hfull : isFull ⟨capacity, capacity - 2, capacity - 2, 0, {}⟩ = false := by
    rw [isFull, hafter]
    exact beq_eq_false_iff_ne.2 (by grind)
  have hundone := hlaws.addLast_undone hfull
  rw [Undoes, moves_addLast_removeLast hfull, hafter] at hundone
  exact @before_last_ne ⟨capacity, capacity - 2, capacity - 2, 0, {}⟩ h
    (congrArg next (Prod.mk.inj hundone).2)

theorem lastSlot?_of_ne (h : words.first ≠ words.next) :
    words.lastSlot? = some (words.before words.next) := by
  rw [lastSlot?, isEmpty, beq_eq_false_iff_ne.2 h]
  rfl

/-- On so many slots the slot that a tracker is built at turns every slot that is named, and nothing
else shows it. -/
def PlacementTurns (capacity : UInt64) : Prop :=
  ∀ first len : UInt64, first.toNat < capacity.toNat → len.toNat ≤ capacity.toNat - 1 →
    ∃ a b : WordTracker, build capacity 0 len {} = .ok a ∧ build capacity first len {} = .ok b ∧
      ∀ steps : List Move, .reset ∉ steps →
        (b.moves steps).1 = (a.moves steps).1 ∧
          Follows capacity.toNat first.toNat ((a.moves steps).2.observe true)
            ((b.moves steps).2.observe true)

/-- On so many slots a tracker that goes back to slot 0 when it is empty answers as one that does
not, and the slots that they name stand apart by one turn, which stays as long as elements are
held. -/
def ResetTurns (capacity : UInt64) : Prop :=
  1 ≤ capacity.toNat →
    ∃ a b : WordTracker, build capacity 0 0 { resetOnZero := true } = .ok a ∧
      build capacity 0 0 { resetOnZero := false } = .ok b ∧
      ∀ steps : List Move, (b.moves steps).1 = (a.moves steps).1 ∧
        ∃ turn < capacity.toNat,
          Follows capacity.toNat turn ((a.moves steps).2.observe true)
            ((b.moves steps).2.observe true) ∧
          ∀ more : List Move,
            (∀ part, part <+: more → part ≠ [] → (a.moves (steps ++ part)).2.isEmpty = false) →
            Follows capacity.toNat turn ((a.moves (steps ++ more)).2.observe true)
              ((b.moves (steps ++ more)).2.observe true)

theorem answers_moves (h : words.value.InWords) (steps : List Move) :
    (words.value.moves steps).1 = (words.moves steps).1 :=
  congrArg Prod.fst (moves_value h steps)

theorem observe_moves (h : words.value.InWords) (steps : List Move) :
    (words.value.moves steps).2.observe true = (words.moves steps).2.observe true := by
  have hleft := h.moves steps
  have hstate : (words.value.moves steps).2 = (words.moves steps).2.value :=
    congrArg Prod.snd (moves_value h steps)
  rw [hstate] at hleft ⊢
  exact observe_value hleft true

theorem isEmpty_moves (h : words.value.InWords) (steps : List Move) :
    (words.value.moves steps).2.isEmpty = (words.moves steps).2.isEmpty :=
  congrArg SlotTracker.Observation.isEmpty (observe_moves h steps)

/-- A tracker of numbers that is built of words is a tracker in words. -/
theorem exists_inWords {first len : UInt64} {options : Options} {tracker : SlotTracker}
    (hcycle : capacity.toNat ≤ cycleLimit)
    (h : SlotTracker.build capacity.toNat first.toNat len.toNat options = .ok tracker) :
    ∃ words : WordTracker, build capacity first len options = .ok words ∧
      words.value = tracker ∧ words.value.InWords := by
  obtain ⟨words, hbuilt, rfl⟩ := exists_build hcycle h
  have hwords : words.capacity.toNat ≤ cycleLimit := (capacity_of_build hbuilt).symm ▸ hcycle
  exact ⟨words, hbuilt, rfl, SlotTracker.valid_of_build h, hwords⟩

theorem placementTurns (hcycle : capacity.toNat ≤ cycleLimit) : PlacementTurns capacity := by
  intro first len hfirst hlen
  obtain ⟨x, y, hx, hy, hruns⟩ := SlotTracker.placement_only_turns.1 capacity.toNat first.toNat
    len.toNat (Nat.one_le_of_lt hfirst) hfirst hlen
  obtain ⟨a, ha, rfl, hawords⟩ := @exists_inWords _ 0 _ _ _ hcycle hx
  obtain ⟨b, hb, rfl, hbwords⟩ := exists_inWords hcycle hy
  refine ⟨a, b, ha, hb, ?_⟩
  intro steps hsteps
  obtain ⟨hanswers, hfollows⟩ := hruns steps hsteps
  rw [answers_moves hawords, answers_moves hbwords] at hanswers
  rw [observe_moves hawords, observe_moves hbwords] at hfollows
  exact ⟨hanswers, hfollows⟩

theorem resetTurns (hcycle : capacity.toNat ≤ cycleLimit) : ResetTurns capacity := by
  intro hpos
  obtain ⟨x, y, hx, hy, hruns⟩ := SlotTracker.placement_only_turns.2 capacity.toNat hpos
  obtain ⟨a, ha, rfl, hawords⟩ := @exists_inWords _ 0 0 _ _ hcycle hx
  obtain ⟨b, hb, rfl, hbwords⟩ := @exists_inWords _ 0 0 _ _ hcycle hy
  refine ⟨a, b, ha, hb, ?_⟩
  intro steps
  obtain ⟨hanswers, turn, hturn, hfollows, hstays⟩ := hruns steps
  simp only [answers_moves hawords, answers_moves hbwords, observe_moves hawords,
    observe_moves hbwords, isEmpty_moves hawords] at hanswers hfollows hstays
  exact ⟨hanswers, turn, hturn, hfollows, hstays⟩

/-- On too many slots the last slot of an element at the last slot but one is misnamed. -/
theorem Beyond.not_placementTurns (h : Beyond capacity) : ¬ PlacementTurns capacity := by
  intro hturns
  have hone : (1 : UInt64).toNat ≤ capacity.toNat - 1 := by
    have hfour := h.four_le
    rw [UInt64.toNat_one]
    omega
  have hpos : (0 : UInt64).toNat < capacity.toNat := Nat.lt_of_lt_of_le (by decide) h.four_le
  obtain ⟨a, b, ha, hb, hruns⟩ := hturns (capacity - 2) 1 h.last_but_one_lt hone
  rw [build_eq hpos hone, UInt64.zero_add, h.mod_eq (by decide)] at ha
  rw [h.build_last_but_one (Nat.le_refl _) h.last_but_one_succ_mod] at hb
  cases ha
  cases hb
  have hheld : capacity - 2 ≠ capacity - 1 := by grind
  have hastray := @lastSlot?_of_ne ⟨capacity, capacity - 2, capacity - 1, 1, {}⟩ hheld
  have hzero : lastSlot? ⟨capacity, 0, 1, 1, {}⟩ = some 0 := by
    rw [lastSlot?_of_ne (by decide : (0 : UInt64) ≠ 1), before_one]
  have hlast := (hruns [] List.not_mem_nil).2.lastSlot?_eq
  change (lastSlot? ⟨capacity, capacity - 2, capacity - 1, 1, {}⟩).map UInt64.toNat =
    ((lastSlot? ⟨capacity, 0, 1, 1, {}⟩).map UInt64.toNat).map _ at hlast
  simp only [hastray, hzero, Option.map_some, Option.some.injEq, UInt64.toNat_zero, Nat.zero_add,
    Nat.mod_eq_of_lt h.last_but_one_lt, UInt64.toNat_inj] at hlast
  exact @before_last_ne ⟨capacity, capacity - 2, capacity - 1, 1, {}⟩ h hlast

/-- The one of these trackers has gone back to slot 0, the other has stayed at slot 1. -/
theorem Beyond.moves_apart (h : Beyond capacity) :
    (moves ⟨capacity, 0, 0, 0, { resetOnZero := true }⟩
      [.addLast, .removeFirst, .addLast, .addFirst]).2 =
        ⟨capacity, capacity - 1, 1, 2, { resetOnZero := true }⟩ ∧
    (moves ⟨capacity, 0, 0, 0, { resetOnZero := false }⟩
      [.addLast, .removeFirst, .addLast, .addFirst]).2 =
        ⟨capacity, 0, 2, 2, { resetOnZero := false }⟩ := by
  have hone : 1 % capacity = 1 := h.mod_eq (by decide)
  have htwo : 2 % capacity = 2 := h.mod_eq (by decide)
  have hthree : 3 % capacity = 3 := h.mod_eq (by decide)
  constructor
  · simp [moves, move, addLast, addFirst, removeFirst, settle, reset, isFull, isEmpty, after,
      hone, htwo, Beyond.before_zero, h]
  · simp [moves, move, addLast, addFirst, removeFirst, settle, isFull, isEmpty, after, hone,
      htwo, hthree, before_one]

/-- What these two trackers name first, and before it. -/
theorem Beyond.slots_apart (h : Beyond capacity) (options : Options) :
    (firstSlot? ⟨capacity, capacity - 1, 1, 2, options⟩ = some (capacity - 1) ∧
      nextFirst? ⟨capacity, capacity - 1, 1, 2, options⟩ =
        some (before ⟨capacity, capacity - 1, 1, 2, options⟩ (capacity - 1))) ∧
    firstSlot? ⟨capacity, 0, 2, 2, options⟩ = some 0 ∧
      nextFirst? ⟨capacity, 0, 2, 2, options⟩ = some (capacity - 1) := by
  have htwo : 2 % capacity = 2 := h.mod_eq (by decide)
  have hthree : 3 % capacity = 3 := h.mod_eq (by decide)
  have hone : capacity - 1 ≠ 1 := (h.ne_last (by decide)).symm
  have hlast : 2 ≠ capacity - 1 := h.ne_last (by decide)
  simp [firstSlot?, nextFirst?, isFull, isEmpty, after, before, htwo, hthree, hone, hlast,
    h.last_mod]

/-- Two elements that reach over the end of too many slots: the slots before them are not as far
apart as the first ones. -/
theorem Beyond.not_resetTurns (h : Beyond capacity) : ¬ ResetTurns capacity := by
  intro hturns
  have hpos : (0 : UInt64).toNat < capacity.toNat := Nat.lt_of_lt_of_le (by decide) h.four_le
  obtain ⟨a, b, ha, hb, hruns⟩ := hturns (Nat.one_le_of_lt hpos)
  rw [build_eq hpos (Nat.zero_le _), UInt64.add_zero, h.mod_eq (by decide)] at ha hb
  cases ha
  cases hb
  obtain ⟨-, turn, hlt, hfollows, -⟩ := hruns [.addLast, .removeFirst, .addLast, .addFirst]
  rw [h.moves_apart.1, h.moves_apart.2] at hfollows
  obtain ⟨⟨hafirst, hanext⟩, -⟩ := h.slots_apart { resetOnZero := true }
  obtain ⟨-, hbfirst, hbnext⟩ := h.slots_apart {}
  have hfirst := hfollows.firstSlot?_eq
  have hnext := hfollows.nextFirst?_eq
  simp only [observe, sight, hafirst, hanext, hbfirst, hbnext, Option.map_some, Option.some.injEq,
    UInt64.toNat_zero] at hfirst hnext
  have hfour := h.four_le
  have hlast : (capacity - 1).toNat = capacity.toNat - 1 := h.toNat_sub (by decide)
  have hlastlt : (capacity - 1).toNat < capacity.toNat := by omega
  have hround : Cursor.forward capacity.toNat (capacity - 1).toNat 1 = 0 := by
    rw [Cursor.forward, hlast, Nat.sub_add_cancel (by omega), Nat.mod_self]
  obtain rfl : turn = 1 :=
    Cursor.forward_injective hlastlt hlt (by omega) (hfirst.symm.trans hround.symm)
  have hastray := @before_last_astray ⟨capacity, capacity - 1, 1, 2, { resetOnZero := true }⟩ h
  simp only at hastray
  have hword : capacity.toNat < wordLimit := capacity.toNat_lt
  rw [Nat.mod_eq_of_lt (by omega)] at hnext
  omega

end CyclicQueue.WordTracker
