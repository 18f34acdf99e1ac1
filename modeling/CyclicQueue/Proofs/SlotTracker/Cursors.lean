import CyclicQueue.Proofs.SlotTracker.Guarded

/-!
# How the cursors of a tracker tell its length

A tracker counts its elements beside its two cursors. However it is made and moved, the cursors lie
as many slots apart as elements are counted, so the tests that look at the cursors alone agree with
the count, also on a cycle of one slot, where a tracker is empty and full at once.
-/

namespace CyclicQueue.SlotTracker

variable {tracker : SlotTracker}

/-! ## Building -/

theorem build_eq_ok_iff {capacity first len : Nat} {options : Options} :
    build capacity first len options = .ok tracker ↔
      1 ≤ capacity ∧ first < capacity ∧ len ≤ capacity - 1 ∧
        tracker = ⟨capacity, first, (first + len) % capacity, len, options⟩ := by
  unfold build
  constructor
  · intro h
    split at h
    · cases h
    · split at h
      · cases h
      · split at h
        · cases h
        · cases h
          exact ⟨by omega, by omega, by omega, rfl⟩
  · rintro ⟨hpos, hfirst, hlen, rfl⟩
    rw [if_neg (Nat.one_le_iff_ne_zero.1 hpos), if_neg (Nat.not_le.2 hfirst),
      if_neg (Nat.not_lt.2 hlen), Cursor.forward]

/-- The first argument that does not fit is the one that is named. -/
theorem build_eq_error_iff {capacity first len : Nat} {options : Options} {fault : Fault} :
    build capacity first len options = .error fault ↔
      (capacity = 0 ∧ fault = .badArgument .capacityNotPositive) ∨
      (1 ≤ capacity ∧ capacity ≤ first ∧ fault = .badArgument .firstOutOfRange) ∨
      (1 ≤ capacity ∧ first < capacity ∧ capacity - 1 < len ∧
        fault = .badArgument .sizeAboveMaximum) := by
  unfold build
  by_cases hzero : capacity = 0
  · simp [hzero, eq_comm]
  · by_cases hfirst : capacity ≤ first
    · simp [hzero, hfirst, Nat.one_le_iff_ne_zero, eq_comm, Nat.not_lt.2 hfirst]
    · by_cases hlen : capacity - 1 < len
      · simp [hzero, hfirst, hlen, Nat.one_le_iff_ne_zero, eq_comm, Nat.not_le.1 hfirst]
      · simp [hzero, hfirst, hlen]

/-! ## Trackers that can come about -/

/-- Trackers that recipes and moves lead to. A copy is the tracker that it is made of. -/
inductive Reachable : SlotTracker → Prop
  | made {recipe : Recipe} {tracker : SlotTracker} (h : recipe.make = .ok tracker) :
    Reachable tracker
  | moved {tracker : SlotTracker} (h : Reachable tracker) (step : Move) :
    Reachable (tracker.move step).2

theorem Reachable.moves (h : tracker.Reachable) (steps : List Move) :
    (tracker.moves steps).2.Reachable := by
  induction steps generalizing tracker with
  | nil => exact h
  | cons step steps ih => exact ih (h.moved step)

/-- A tracker that is to start again at slot 0 stands there whenever it is empty. -/
def Anchored (tracker : SlotTracker) : Prop :=
  tracker.resetOnZero = true → tracker.len = 0 → tracker.first = 0

theorem anchored_of_make {recipe : Recipe} (h : recipe.make = .ok tracker) :
    tracker.Anchored := by
  cases recipe with
  | ofCapacity capacity =>
    obtain ⟨-, -, -, rfl⟩ := build_eq_ok_iff.1 h
    exact fun _ _ => rfl
  | withPosition capacity first len =>
    obtain ⟨-, -, -, rfl⟩ := build_eq_ok_iff.1 h
    -- such a tracker never starts again at slot 0
    intro hreset
    cases hreset
  | withOptions capacity options =>
    obtain ⟨-, -, -, rfl⟩ := build_eq_ok_iff.1 h
    exact fun _ _ => rfl

theorem anchored_settle (tracker : SlotTracker) : tracker.settle.Anchored := by
  unfold settle
  split
  · exact fun _ _ => rfl
  · next hkeep =>
    intro hreset hzero
    exact absurd ⟨hzero, hreset⟩ hkeep

theorem Anchored.move (h : tracker.Anchored) (step : Move) :
    (tracker.move step).2.Anchored := by
  have hmoved := tracker.moved_move step
  generalize tracker.move step = result at hmoved ⊢
  cases hmoved with
  | refused => exact h
  | grownBack => exact fun _ hzero => absurd hzero (Nat.succ_ne_zero _)
  | grownFront => exact fun _ hzero => absurd hzero (Nat.succ_ne_zero _)
  | shrunkFront => exact anchored_settle _
  | shrunkBack => exact anchored_settle _
  | reset => exact fun _ _ => rfl

theorem valid_of_make {recipe : Recipe} (h : recipe.make = .ok tracker) : tracker.Valid := by
  cases recipe <;> exact valid_of_build h

namespace Reachable

theorem valid (h : tracker.Reachable) : tracker.Valid := by
  induction h with
  | made h => exact valid_of_make h
  | moved _ step ih => exact ih.move step

theorem anchored (h : tracker.Reachable) : tracker.Anchored := by
  induction h with
  | made h => exact anchored_of_make h
  | moved _ step ih => exact ih.move step

end Reachable

/-! ## Sessions -/

namespace Session

/-- Carries out one request after the other. -/
def run (session : Session) : List Request → List Reply × Session
  | [] => ([], session)
  | request :: requests =>
    let (reply, session) := session.step request
    let (replies, session) := session.run requests
    (reply :: replies, session)

/-- Every tracker that is kept has a property. -/
def All (property : SlotTracker → Prop) (session : Session) : Prop :=
  ∀ name tracker, session.trackers.get? name = some tracker → property tracker

namespace All

variable {property : SlotTracker → Prop} {session : Session}

theorem start : Session.start.All property := by
  intro name tracker hkept
  cases hkept

theorem put (h : session.All property) (name : String) (htracker : property tracker) :
    (session.put name tracker).All property := by
  intro other kept hkept
  by_cases hname : other = name
  · subst hname
    rw [Session.put, Registers.get?_put_self] at hkept
    exact Option.some.inj hkept ▸ htracker
  · rw [Session.put, Registers.get?_put_of_ne _ _ hname] at hkept
    exact h other kept hkept

theorem stepOn (h : session.All property) (name : String)
    {act : SlotTracker → Reply × Session}
    (hact : ∀ tracker : SlotTracker, property tracker → (act tracker).2.All property) :
    (session.stepOn name act).2.All property := by
  unfold Session.stepOn
  cases hfound : session.trackers.get? name with
  | none => exact h
  | some tracker => exact hact tracker (h name tracker hfound)

/-- What the trackers that are made have and every move keeps, all trackers have. -/
theorem step (h : session.All property)
    (hmoved : ∀ tracker step, property tracker → property (tracker.move step).2)
    {request : Request}
    (hmade : ∀ target recipe tracker, request = .make target recipe →
      recipe.make = .ok tracker → property tracker) :
    (session.step request).2.All property := by
  cases request with
  | make target recipe =>
    simp only [Session.step]
    cases hmake : recipe.make with
    | error fault => exact h
    | ok tracker => exact h.put target (hmade target recipe tracker rfl hmake)
  | look name => exact h.stepOn name fun _ _ => h
  | move name step =>
    exact h.stepOn name fun tracker htracker => h.put name (hmoved tracker step htracker)
  | «show» name expanded => exact h.stepOn name fun _ _ => h
  | copy name target => exact h.stepOn name fun _ htracker => h.put target htracker
  | compare name other => exact h.stepOn name fun _ _ => h.stepOn other fun _ _ => h

theorem run (h : session.All property)
    (hmoved : ∀ tracker step, property tracker → property (tracker.move step).2)
    {requests : List Request}
    (hmade : ∀ target recipe tracker, .make target recipe ∈ requests →
      recipe.make = .ok tracker → property tracker) :
    (session.run requests).2.All property := by
  induction requests generalizing session with
  | nil => exact h
  | cons request requests ih =>
    apply ih
    · apply h.step hmoved
      rintro target recipe tracker rfl hmake
      exact hmade target recipe tracker List.mem_cons_self hmake
    · intro target recipe tracker hmem hmake
      exact hmade target recipe tracker (List.mem_cons_of_mem _ hmem) hmake

end All

/-- Only trackers that can come about are kept. -/
theorem all_reachable (requests : List Request) : (start.run requests).2.All Reachable :=
  All.start.run (fun _ step h => h.moved step) fun _ _ _ _ hmake => .made hmake

end Session

/-- How cursors and length of a tracker of the given number of slots fit together, and what the
tests of the cursors tell of the length. -/
structure Fitted (capacity : Nat) (tracker : SlotTracker) : Prop where
  capacity_eq : tracker.capacity = capacity
  first_lt : tracker.first < capacity
  next_lt : tracker.next < capacity
  len_le : tracker.len ≤ capacity - 1
  next_eq : tracker.next = (tracker.first + tracker.len) % capacity
  isEmpty_iff : tracker.isEmpty = true ↔ tracker.len = 0
  isFull_iff : tracker.isFull = true ↔ tracker.len = tracker.maxLen
  /-- A tracker of one slot is empty and full at once. -/
  single : capacity = 1 → tracker.isEmpty = true ∧ tracker.isFull = true
  /-- The cursors of an empty tracker stand at slot 0 if the options say so. -/
  origin : tracker.resetOnZero = true → tracker.len = 0 → tracker.first = 0 ∧ tracker.next = 0

theorem Reachable.fitted (h : tracker.Reachable) : tracker.Fitted tracker.capacity where
  capacity_eq := rfl
  first_lt := h.valid.first_lt
  next_lt := h.valid.next_lt
  len_le := h.valid.len_le
  next_eq := h.valid.next_eq
  isEmpty_iff := h.valid.isEmpty_iff
  isFull_iff := h.valid.isFull_iff
  single := by
    intro hone
    have hlen := h.valid.len_le
    have hmax : tracker.maxLen = 0 := by rw [maxLen, hone]
    have hzero : tracker.len = 0 := Nat.le_zero.1 (hmax ▸ hlen)
    exact ⟨h.valid.isEmpty_iff.2 hzero, h.valid.isFull_iff.2 (hzero.trans hmax.symm)⟩
  origin := by
    intro hreset hzero
    have hfirst := h.anchored hreset hzero
    refine ⟨hfirst, ?_⟩
    rw [h.valid.next_eq_slotAt, hzero, h.valid.slotAt_zero, hfirst]

/-- A position is accepted exactly where it is one, and the first argument that is not is named.
From there on the cursors tell the length in every run, whatever trackers are made, moved and
copied beside each other. On at most `2 ^ 63` slots words suffice, and no test fails. -/
theorem cursors_tell_len :
    (∀ (capacity first len : Nat) (tracker : SlotTracker),
      withPosition capacity first len = .ok tracker ↔
        1 ≤ capacity ∧ first < capacity ∧ len ≤ capacity - 1 ∧
          tracker = ⟨capacity, first, (first + len) % capacity, len, {}⟩) ∧
    (∀ (capacity first len : Nat) (fault : Fault),
      withPosition capacity first len = .error fault ↔
        (capacity = 0 ∧ fault = .badArgument .capacityNotPositive) ∨
        (1 ≤ capacity ∧ capacity ≤ first ∧ fault = .badArgument .firstOutOfRange) ∨
        (1 ≤ capacity ∧ first < capacity ∧ capacity - 1 < len ∧
          fault = .badArgument .sizeAboveMaximum)) ∧
    (∀ (recipe : Recipe) (tracker : SlotTracker) (steps : List Move),
      recipe.make = .ok tracker →
        (tracker.moves steps).2.Fitted tracker.capacity ∧
          (tracker.moves steps).2.options = tracker.options) ∧
    (∀ (requests : List Request) (name : String) (tracker : SlotTracker),
      (Session.start.run requests).2.trackers.get? name = some tracker →
        tracker.Reachable ∧ tracker.Fitted tracker.capacity) ∧
    (∀ (capacity first len : Nat) (options : Options), capacity ≤ Machine.cycleLimit →
      Guarded.build capacity first len options = .ok (build capacity first len options)) ∧
    ∀ (tracker : SlotTracker) (step : Move), tracker.Reachable →
      tracker.capacity ≤ Machine.cycleLimit →
        Guarded.move tracker step = .ok (tracker.move step) := by
  refine ⟨?_, ?_, ?_, ?_, ?_, ?_⟩
  · intro capacity first len tracker
    exact build_eq_ok_iff
  · intro capacity first len fault
    exact build_eq_error_iff
  · intro recipe tracker steps hmake
    have hfitted := ((Reachable.made hmake).moves steps).fitted
    have hsetting := tracker.setting_moves steps
    rw [setting, setting, Prod.mk.injEq] at hsetting
    rw [hsetting.1] at hfitted
    exact ⟨hfitted, hsetting.2⟩
  · intro requests name tracker hkept
    have hreach := Session.all_reachable requests name tracker hkept
    exact ⟨hreach, hreach.fitted⟩
  · intro capacity first len options hcycle
    exact Guarded.build_eq hcycle first len options
  · intro tracker step hreach hcycle
    exact Guarded.move_eq ⟨hreach.valid, hcycle⟩ step

/-- Two elements lie across the end of three slots, a tracker that starts again at slot 0 is emptied
from both ends, a copy of one slot refuses an element, and the last slot of the largest cycle can
be the first one. -/
theorem cursors_tell_len_small :
    withPosition 3 2 2 = .ok ⟨3, 2, 1, 2, {}⟩ ∧
      withPosition 3 3 9 = .error (.badArgument .firstOutOfRange) ∧
      (∃ tracker, (Recipe.withOptions 3 { resetOnZero := true }).make = .ok tracker ∧
        (tracker.moves [.addLast, .addFirst, .removeLast, .removeFirst]).1 =
          [true, true, true, true] ∧
        Fitted 3 (tracker.moves [.addLast, .addFirst, .removeLast, .removeFirst]).2) ∧
      (Session.start.run [.make "a" (.withPosition 1 0 0), .copy "a" "b",
          .move "b" .addLast]).2.trackers.get? "b" = some ⟨1, 0, 0, 0, {}⟩ ∧
      (isEmpty ⟨1, 0, 0, 0, {}⟩ = true ∧ isFull ⟨1, 0, 0, 0, {}⟩ = true) ∧
      Guarded.build Machine.cycleLimit (Machine.cycleLimit - 1) 1 {} =
        .ok (build Machine.cycleLimit (Machine.cycleLimit - 1) 1 {}) ∧
      Guarded.move ⟨3, 2, 1, 2, {}⟩ .removeFirst = .ok (true, ⟨3, 0, 1, 1, {}⟩) := by
  obtain ⟨hposition, hrefused, hruns, hsessions, hbuild, hmove⟩ := cursors_tell_len
  have hmake : (Recipe.withPosition 3 2 2).make = .ok ⟨3, 2, 1, 2, {}⟩ :=
    (hposition 3 2 2 _).2 ⟨by decide, by decide, by decide, rfl⟩
  have hcopy : (Session.start.run [.make "a" (.withPosition 1 0 0), .copy "a" "b",
      .move "b" .addLast]).2.trackers.get? "b" = some ⟨1, 0, 0, 0, {}⟩ := rfl
  refine ⟨hmake, (hrefused 3 3 9 _).2 (.inr (.inl ⟨by decide, by decide, rfl⟩)), ?_, hcopy,
    (hsessions _ "b" _ hcopy).2.single rfl, ?_, ?_⟩
  · exact ⟨_, rfl, rfl, (hruns (.withOptions 3 { resetOnZero := true }) _ _ rfl).1⟩
  · exact hbuild _ _ _ _ (Nat.le_refl _)
  · exact hmove _ .removeFirst (.made hmake) (by decide)

end CyclicQueue.SlotTracker
