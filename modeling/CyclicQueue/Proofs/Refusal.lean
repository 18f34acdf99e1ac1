import CyclicQueue.Proofs.ByteRing.Transitions
import CyclicQueue.SlotTracker.Basic

/-!
# A refused request changes nothing

Every guard stands before the first write, so a request that is refused leaves the ring, the target
of a copy or the tracker exactly as it was. A run may therefore be told without the requests that
it refuses.
-/

namespace CyclicQueue

namespace ByteRing

variable {ring : ByteRing}

theorem Valid.update_of_error (h : ring.Valid) {change : Update} {fault : Fault}
    (hrefused : (ring.update change).1 = .error fault) : (ring.update change).2 = ring := by
  have hmoved := h.moved_update change
  generalize ring.update change = result at hmoved hrefused ⊢
  cases hmoved with
  | refused _ => rfl
  | cleared _ => cases hrefused
  | added _ _ _ => cases hrefused
  | removed _ _ _ => cases hrefused

theorem copyTo_of_error {offset length targetOffset : Nat} {target : List UInt8} {fault : Fault}
    (hrefused : (ring.copyTo offset length target targetOffset).1 = .error fault) :
    (ring.copyTo offset length target targetOffset).2 = target := by
  unfold copyTo at hrefused ⊢
  split at hrefused
  · rfl
  · split at hrefused
    · rfl
    · cases hrefused

/-- The changes of a run that are not refused. -/
def accepted (ring : ByteRing) : List Update → List Update
  | [] => []
  | change :: changes =>
    let (outcome, left) := ring.update change
    if outcome.isOk then change :: left.accepted changes else left.accepted changes

/-- The changes that are not refused answer by themselves as they do among the refused ones, and
lead to the same ring. -/
theorem Valid.updates_accepted (h : ring.Valid) (changes : List Update) :
    ring.updates (ring.accepted changes) =
      ((ring.updates changes).1.filter Except.isOk, (ring.updates changes).2) := by
  induction changes generalizing ring with
  | nil => rfl
  | cons change changes ih =>
    have hrest := ih (Leads.of_moved (h.moved_update change) |>.valid h)
    rcases hupdate : ring.update change with ⟨outcome, left⟩
    rw [hupdate] at hrest
    cases outcome with
    | error fault =>
      have hleft := h.update_of_error (congrArg Prod.fst hupdate)
      rw [hupdate] at hleft
      obtain rfl : left = ring := hleft
      simp only [accepted, updates, hupdate]
      exact hrest
    | ok handed =>
      have hkept : ring.accepted (change :: changes) = change :: left.accepted changes := by
        simp only [accepted, hupdate]
        rfl
      rw [hkept]
      simp only [updates, hupdate]
      rw [hrest]
      rfl

end ByteRing

namespace SlotTracker

variable {tracker : SlotTracker}

theorem eq_of_guard {guard : Prop} [Decidable guard] {moved : Bool × SlotTracker}
    (hmoved : moved.1 = true) (hrefused : (if guard then (false, tracker) else moved).1 = false) :
    (if guard then (false, tracker) else moved).2 = tracker := by
  by_cases hguard : guard
  · rw [if_pos hguard]
  · rw [if_neg hguard, hmoved] at hrefused
    cases hrefused

theorem move_of_false {step : Move} (hrefused : (tracker.move step).1 = false) :
    (tracker.move step).2 = tracker := by
  cases step with
  | addLast => exact eq_of_guard rfl hrefused
  | addFirst =>
    refine eq_of_guard ?_ hrefused
    split <;> rfl
  | removeFirst => exact eq_of_guard rfl hrefused
  | removeLast => exact eq_of_guard rfl hrefused
  | reset => cases hrefused

/-- The moves of a run that are not refused. -/
def accepted (tracker : SlotTracker) : List Move → List Move
  | [] => []
  | step :: steps =>
    let (done, left) := tracker.move step
    if done then step :: left.accepted steps else left.accepted steps

theorem moves_accepted (tracker : SlotTracker) (steps : List Move) :
    tracker.moves (tracker.accepted steps) =
      ((tracker.moves steps).1.filter id, (tracker.moves steps).2) := by
  induction steps generalizing tracker with
  | nil => rfl
  | cons step steps ih =>
    rcases hmove : tracker.move step with ⟨done, left⟩
    cases done with
    | false =>
      have hleft := move_of_false (congrArg Prod.fst hmove)
      rw [hmove] at hleft
      obtain rfl : left = tracker := hleft
      simp only [accepted, moves, hmove]
      exact ih left
    | true =>
      have hkept : tracker.accepted (step :: steps) = step :: left.accepted steps := by
        simp only [accepted, hmove]
        rfl
      rw [hkept]
      simp only [moves, hmove]
      rw [ih left]
      rfl

end SlotTracker

/-- A change of a ring, a copy out of it and a move of a tracker leave everything as it was where
they are refused, and a run without its refused requests is the same run. -/
theorem refusals_change_nothing :
    (∀ ring : ByteRing, ring.Reachable →
      (∀ (change : ByteRing.Update) (fault : Fault), (ring.update change).1 = .error fault →
        (ring.update change).2 = ring) ∧
      (∀ (memory : Memory) (offset length : Nat) (target : List UInt8) (targetOffset : Nat)
        (fault : Fault), (ring.copyTo offset length target targetOffset).1 = .error fault →
        (ring.copyTo offset length target targetOffset).2 = target ∧
          (ring.answer memory (.copyTo offset length target targetOffset)).2 = ring) ∧
      ∀ changes : List ByteRing.Update, ring.updates (ring.accepted changes) =
        ((ring.updates changes).1.filter Except.isOk, (ring.updates changes).2)) ∧
    ∀ tracker : SlotTracker,
      (∀ step : SlotTracker.Move, (tracker.move step).1 = false →
        (tracker.move step).2 = tracker) ∧
      ∀ steps : List SlotTracker.Move, tracker.moves (tracker.accepted steps) =
        ((tracker.moves steps).1.filter id, (tracker.moves steps).2) := by
  constructor
  · intro ring hreach
    refine ⟨?_, ?_, hreach.valid.updates_accepted⟩
    · intro change fault hrefused
      exact hreach.valid.update_of_error hrefused
    · intro memory offset length target targetOffset fault hrefused
      exact ⟨ByteRing.copyTo_of_error hrefused, rfl⟩
  · intro tracker
    exact ⟨fun step => SlotTracker.move_of_false, tracker.moves_accepted⟩

/-- Two bytes do not fit behind the one that is held, a target of two bytes has none at offset 2,
and a tracker of one slot never has room. -/
theorem refusals_change_nothing_small :
    (ByteRing.filled 2 [7] []).Reachable ∧
      ((ByteRing.filled 2 [7] []).update (.pushSlice [8, 9])).1 = .error (.tooSmall 2 1) ∧
      ((ByteRing.filled 2 [7] []).update (.pushSlice [8, 9])).2 = ByteRing.filled 2 [7] [] ∧
      ((ByteRing.filled 2 [7] []).copyTo 0 1 [1, 2] 2).1 =
        .error (.badArgument .offsetOutOfRange) ∧
      ((ByteRing.filled 2 [7] []).copyTo 0 1 [1, 2] 2).2 = [1, 2] ∧
      (SlotTracker.move ⟨1, 0, 0, 0, {}⟩ .addFirst).1 = false ∧
      (SlotTracker.move ⟨1, 0, 0, 0, {}⟩ .addFirst).2 = ⟨1, 0, 0, 0, {}⟩ := by
  have hmake : (ByteRing.Recipe.ofBytesWithCapacity [7] 2).make .ordinary =
      .ok (ByteRing.filled 2 [7] []) := rfl
  obtain ⟨hrings, htrackers⟩ := refusals_change_nothing
  obtain ⟨hupdate, hcopy, -⟩ := hrings _ (.made hmake)
  obtain ⟨hmove, -⟩ := htrackers ⟨1, 0, 0, 0, {}⟩
  exact ⟨.made hmake, rfl, hupdate _ _ rfl, rfl, (hcopy .ordinary _ _ _ _ _ rfl).1, rfl,
    hmove _ rfl⟩

end CyclicQueue
