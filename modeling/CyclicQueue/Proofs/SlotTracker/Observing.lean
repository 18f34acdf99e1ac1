import CyclicQueue.Proofs.SlotTracker.Limit
import CyclicQueue.SlotTracker.Sight

/-!
# Trackers that are seen alike are equal

What a tracker tells leaves none of its state open, though the ends are hidden while it is empty and
the slots beside them while it is full: the first cursor is the first slot, or else the slot that the
first element would take, and where neither is told there is one slot only. The write cursor follows
from the length. In words it need not, once the step back goes astray; but the trackers that words
lead to are still seen alike only when they are equal.
-/

namespace CyclicQueue

namespace SlotTracker

variable {a b tracker : SlotTracker}

/-- The tracker that is seen so. -/
def Sight.restore (sight : Sight) : SlotTracker :=
  let first := (sight.firstSlot?.or sight.nextLast?).getD 0
  { capacity := sight.capacity
    first
    next := Cursor.forward sight.capacity first sight.len
    len := sight.len
    options := { resetOnZero := sight.resetOnZero } }

namespace Valid

/-- A tracker that is empty and full at once has one slot. -/
theorem first_eq_zero (h : tracker.Valid) (hzero : tracker.len = 0)
    (hfull : tracker.len = tracker.maxLen) : tracker.first = 0 := by
  have hfirst := h.first_lt
  rw [hzero, maxLen] at hfull
  omega

theorem seen_first (h : tracker.Valid) :
    (tracker.firstSlot?.or tracker.nextLast?).getD 0 = tracker.first := by
  rw [h.firstSlot?_eq, h.nextLast?_eq]
  by_cases hzero : tracker.len = 0
  · rw [if_pos hzero, Option.none_or]
    by_cases hfull : tracker.len = tracker.maxLen
    · -- neither slot is told, but there is only slot 0
      rw [if_pos hfull, Option.getD_none, h.first_eq_zero hzero hfull]
    · rw [if_neg hfull, Option.getD_some, hzero, h.slotAt_zero]
  · rw [if_neg hzero, Option.some_or, Option.getD_some, h.slotAt_zero]

theorem restore_sight (h : tracker.Valid) : tracker.sight.restore = tracker := by
  have hfirst : (tracker.sight.firstSlot?.or tracker.sight.nextLast?).getD 0 = tracker.first :=
    h.seen_first
  have hnext : Cursor.forward tracker.sight.capacity tracker.first tracker.sight.len =
      tracker.next := h.next_eq.symm
  rw [Sight.restore, hfirst, hnext]
  rfl

theorem sight_injective (ha : a.Valid) (hb : b.Valid) (h : a.sight = b.sight) : a = b := by
  rw [← ha.restore_sight, h, hb.restore_sight]

end Valid

/-- While nothing is held, a tracker of several slots shows where it stands. -/
theorem Valid.nextLast?_of_empty (h : tracker.Valid) (hzero : tracker.len = 0)
    (hslots : 1 < tracker.capacity) : tracker.nextLast? = some tracker.first := by
  have hroom : tracker.len ≠ tracker.maxLen := by
    rw [hzero, maxLen]
    omega
  rw [h.nextLast?_eq, if_neg hroom, hzero, h.slotAt_zero]

/-- Two trackers that can come about are equal exactly where they are seen alike, and what is seen
alike stays so: every run is answered alike and is observed alike from move to move. Two empty
trackers that stand at different slots are told apart by the slot of the next element at the
back.

The moves are those of numbers, which are the moves in words on at most `2 ^ 63` slots. In words
nothing is lost on more slots either, by `WordTracker.eq_iff_sight_eq`. -/
theorem beq_iff_seen_alike (ha : a.Reachable) (hb : b.Reachable) :
    ((a == b) = true ↔ a.sight = b.sight) ∧
    (a.sight = b.sight → ∀ steps : List Move,
      (a.moves steps).1 = (b.moves steps).1 ∧ a.watch steps = b.watch steps ∧
        (a.moves steps).2.sight = (b.moves steps).2.sight) ∧
    (a.capacity = b.capacity → a.len = 0 → b.len = 0 → a.first ≠ b.first →
      (a == b) = false ∧ 1 < a.capacity ∧ a.nextLast? ≠ b.nextLast?) := by
  refine ⟨?_, ?_, ?_⟩
  · rw [beq_iff_eq]
    constructor
    · rintro rfl
      rfl
    · exact ha.valid.sight_injective hb.valid
  · intro halike steps
    obtain rfl : a = b := ha.valid.sight_injective hb.valid halike
    exact ⟨rfl, rfl, rfl⟩
  · intro hcapacity hazero hbzero hapart
    have hafirst := ha.valid.first_lt
    have hbfirst := hb.valid.first_lt
    have hslots : 1 < a.capacity := by omega
    refine ⟨?_, hslots, ?_⟩
    · rw [beq_eq_false_iff_ne]
      rintro rfl
      exact hapart rfl
    · rw [ha.valid.nextLast?_of_empty hazero hslots,
        hb.valid.nextLast?_of_empty hbzero (hcapacity ▸ hslots)]
      exact fun heq => hapart (Option.some.inj heq)

/-- Two empty trackers of three slots that stand apart name no first and no last slot, but different
slots for the next element. Trackers that are made in different ways and moved to one place are
equal, and a full one shows neither of the slots beside it. -/
theorem beq_iff_seen_alike_apart :
    Reachable ⟨3, 0, 0, 0, {}⟩ ∧ Reachable ⟨3, 2, 2, 0, {}⟩ ∧
      firstSlot? ⟨3, 0, 0, 0, {}⟩ = firstSlot? ⟨3, 2, 2, 0, {}⟩ ∧
      nextLast? ⟨3, 0, 0, 0, {}⟩ ≠ nextLast? ⟨3, 2, 2, 0, {}⟩ ∧
      sight ⟨3, 0, 0, 0, {}⟩ ≠ sight ⟨3, 2, 2, 0, {}⟩ ∧
      ((⟨3, 2, 1, 2, {}⟩ : SlotTracker) ==
        (moves ⟨3, 0, 0, 0, {}⟩ [.addLast, .addFirst]).2) = true ∧
      nextFirst? ⟨3, 2, 1, 2, {}⟩ = none ∧ nextLast? ⟨3, 2, 1, 2, {}⟩ = none := by
  have hmade : Reachable ⟨3, 0, 0, 0, {}⟩ := @Reachable.made (.ofCapacity 3) _ rfl
  have hplaced : Reachable ⟨3, 2, 2, 0, {}⟩ := @Reachable.made (.withPosition 3 2 0) _ rfl
  have hfull : Reachable ⟨3, 2, 1, 2, {}⟩ := @Reachable.made (.withPosition 3 2 2) _ rfl
  obtain ⟨hequal, -, hanchors⟩ := beq_iff_seen_alike hmade hplaced
  obtain ⟨hdiffer, -, hnext⟩ := hanchors rfl rfl rfl (by decide)
  have hmoved := beq_iff_seen_alike hfull (hmade.moves [.addLast, .addFirst])
  refine ⟨hmade, hplaced, rfl, hnext, ?_, hmoved.1.2 rfl, rfl, rfl⟩
  intro halike
  rw [hequal.2 halike] at hdiffer
  cases hdiffer

end SlotTracker

/-! ## In words -/

namespace WordTracker

open Machine
open SlotTracker (Options Move Sight)

variable {words a b : WordTracker} {capacity : UInt64}

theorem firstSlot?_eq_none_iff : words.firstSlot? = none ↔ words.isEmpty = true := by
  unfold firstSlot?
  split <;> simp_all

theorem nextLast?_eq_none_iff : words.nextLast? = none ↔ words.isFull = true := by
  unfold nextLast?
  split
  · simp_all
  · split <;> simp_all

/-- Both cursors name slots. -/
structure OnCycle (words : WordTracker) : Prop where
  first_lt : words.first.toNat < words.capacity.toNat
  next_lt : words.next.toNat < words.capacity.toNat

theorem toNat_mod_lt (h : 0 < capacity.toNat) (n : UInt64) :
    (n % capacity).toNat < capacity.toNat := by
  rw [UInt64.toNat_mod]
  exact Nat.mod_lt _ h

namespace OnCycle

theorem capacity_pos (h : words.OnCycle) : 0 < words.capacity.toNat :=
  Nat.zero_lt_of_lt h.first_lt

theorem of_build {first len : UInt64} {options : Options}
    (h : build capacity first len options = .ok words) : words.OnCycle := by
  unfold build at h
  split at h
  · cases h
  · split at h
    · cases h
    · next hfirst =>
      split at h
      · cases h
      · cases h
        have hlt := Nat.not_le.1 (mt UInt64.le_iff_toNat_le.2 hfirst)
        exact ⟨hlt, toNat_mod_lt (Nat.zero_lt_of_lt hlt) _⟩

theorem reset (h : words.OnCycle) : words.reset.OnCycle :=
  ⟨h.capacity_pos, h.capacity_pos⟩

theorem settle (h : words.OnCycle) : words.settle.OnCycle := by
  unfold WordTracker.settle
  split
  · exact h.reset
  · exact h

theorem move (h : words.OnCycle) (step : Move) : (words.move step).2.OnCycle := by
  have hturned := toNat_mod_lt h.capacity_pos
  cases step with
  | addLast =>
    rw [WordTracker.move, addLast]
    split
    · exact h
    · exact ⟨h.first_lt, hturned _⟩
  | addFirst =>
    rw [WordTracker.move, addFirst]
    split
    · exact h
    · split
      · exact ⟨h.first_lt, hturned _⟩
      · exact ⟨hturned _, h.next_lt⟩
  | removeFirst =>
    rw [WordTracker.move, removeFirst]
    split
    · exact h
    · exact settle ⟨hturned _, h.next_lt⟩
  | removeLast =>
    rw [WordTracker.move, removeLast]
    split
    · exact h
    · exact settle ⟨h.first_lt, hturned _⟩
  | reset => exact h.reset

theorem eq_of_after_eq {x y : UInt64} (hx : x.toNat < words.capacity.toNat)
    (hy : y.toNat < words.capacity.toNat) (h : words.after x = words.after y) : x = y := by
  have hforward : Cursor.forward words.capacity.toNat x.toNat 1 =
      Cursor.forward words.capacity.toNat y.toNat 1 := by
    rw [← UInt64.toNat_inj, toNat_after hx, toNat_after hy] at h
    exact h
  have hpos : 1 ≤ words.capacity.toNat := Nat.one_le_of_lt hx
  rw [← UInt64.toNat_inj, ← Cursor.back_forward hx hpos, hforward, Cursor.back_forward hy hpos]

/-- An empty tracker that is full has one slot only. -/
theorem first_eq_zero (h : words.OnCycle) (hempty : words.isEmpty = true)
    (hfull : words.isFull = true) : words.first = 0 := by
  have hself : words.after words.first = words.first := by
    have hround : words.after words.next = words.first := beq_iff_eq.1 hfull
    rwa [← beq_iff_eq.1 hempty] at hround
  have hforward : Cursor.forward words.capacity.toNat words.first.toNat 1 =
      Cursor.forward words.capacity.toNat words.first.toNat 0 := by
    rw [← UInt64.toNat_inj, toNat_after h.first_lt] at hself
    exact hself.trans (Cursor.forward_zero h.first_lt).symm
  have hone : ¬ 1 < words.capacity.toNat := by
    intro hmore
    cases Cursor.forward_injective h.first_lt hmore h.capacity_pos hforward
  exact toNat_eq_zero_iff.1 (Nat.lt_one_iff.1 (Nat.lt_of_lt_of_le h.first_lt (Nat.not_lt.1 hone)))

/-- Where nothing is held, the next element at the back shows the cursors. -/
theorem first_eq_of_empty (ha : a.OnCycle) (hb : b.OnCycle) (haempty : a.isEmpty = true)
    (hbempty : b.isEmpty = true) (hfull : a.isFull = b.isFull)
    (hnext : a.nextLast? = b.nextLast?) : a.first = b.first := by
  cases hbfull : b.isFull with
  | true => rw [ha.first_eq_zero haempty (hfull.trans hbfull), hb.first_eq_zero hbempty hbfull]
  | false => simpa [nextLast?, haempty, hbempty, hfull, hbfull] using hnext

/-- Where something is held, a full tracker still shows the write cursor: it is the slot before the
first one. -/
theorem next_eq_of_held (ha : a.OnCycle) (hb : b.OnCycle) (hcapacity : a.capacity = b.capacity)
    (haheld : a.isEmpty = false) (hbheld : b.isEmpty = false) (hfirst : a.first = b.first)
    (hfull : a.isFull = b.isFull) (hnext : a.nextLast? = b.nextLast?) : a.next = b.next := by
  cases hbfull : b.isFull with
  | true =>
    have haround : a.after a.next = a.first := beq_iff_eq.1 (hfull.trans hbfull)
    have hbround : b.after b.next = b.first := beq_iff_eq.1 hbfull
    have hsame : a.after b.next = b.after b.next := by rw [after, after, hcapacity]
    apply eq_of_after_eq ha.next_lt (hcapacity ▸ hb.next_lt)
    rw [haround, hfirst, hsame, hbround]
  | false => simpa [nextLast?, haheld, hbheld, hfull, hbfull] using hnext

theorem cursors_eq (ha : a.OnCycle) (hb : b.OnCycle) (hcapacity : a.capacity = b.capacity)
    (hfirst : a.firstSlot? = b.firstSlot?) (hnext : a.nextLast? = b.nextLast?) :
    a.first = b.first ∧ a.next = b.next := by
  have hempty : a.isEmpty = b.isEmpty := by
    rw [Bool.eq_iff_iff, ← firstSlot?_eq_none_iff, hfirst, firstSlot?_eq_none_iff]
  have hfull : a.isFull = b.isFull := by
    rw [Bool.eq_iff_iff, ← nextLast?_eq_none_iff, hnext, nextLast?_eq_none_iff]
  cases hbempty : b.isEmpty with
  | true =>
    have haempty := hempty.trans hbempty
    have hfirsts := ha.first_eq_of_empty hb haempty hbempty hfull hnext
    have haends : a.first = a.next := beq_iff_eq.1 haempty
    have hbends : b.first = b.next := beq_iff_eq.1 hbempty
    exact ⟨hfirsts, by rw [← haends, ← hbends, hfirsts]⟩
  | false =>
    have haheld := hempty.trans hbempty
    have hfirsts : a.first = b.first := by simpa [firstSlot?, haheld, hbempty] using hfirst
    exact ⟨hfirsts, ha.next_eq_of_held hb hcapacity haheld hbempty hfirsts hfull hnext⟩

theorem sight_injective (ha : a.OnCycle) (hb : b.OnCycle) (h : a.sight = b.sight) : a = b := by
  have hcapacity : a.capacity = b.capacity := UInt64.toNat_inj.1 (congrArg Sight.capacity h)
  have hlen : a.len = b.len := UInt64.toNat_inj.1 (congrArg Sight.len h)
  have hreset : a.options.resetOnZero = b.options.resetOnZero := congrArg Sight.resetOnZero h
  have hfirst : a.firstSlot? = b.firstSlot? :=
    (Option.map_inj_right fun _ _ => UInt64.toNat_inj.1).1 (congrArg Sight.firstSlot? h)
  have hnext : a.nextLast? = b.nextLast? :=
    (Option.map_inj_right fun _ _ => UInt64.toNat_inj.1).1 (congrArg Sight.nextLast? h)
  obtain ⟨hfirsts, hnexts⟩ := ha.cursors_eq hb hcapacity hfirst hnext
  obtain ⟨capacity, first, next, len, ⟨resetOnZero⟩⟩ := a
  obtain ⟨capacity', first', next', len', ⟨resetOnZero'⟩⟩ := b
  simp only at hcapacity hlen hreset hfirsts hnexts
  rw [hcapacity, hlen, hreset, hfirsts, hnexts]

end OnCycle

theorem Reachable.onCycle (h : words.Reachable) : words.OnCycle := by
  induction h with
  | @made recipe words hmade => cases recipe <;> exact .of_build hmade
  | moved _ step ih => exact ih.move step

/-- In words, too, trackers that are seen alike are equal, on any number of slots. -/
theorem eq_iff_sight_eq (ha : a.Reachable) (hb : b.Reachable) : a = b ↔ a.sight = b.sight :=
  ⟨congrArg WordTracker.sight, ha.onCycle.sight_injective hb.onCycle⟩

end WordTracker

end CyclicQueue
