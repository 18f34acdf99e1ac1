import CyclicQueue.Proofs.ByteRing.Reachable

/-!
# Rings refine bounded lists

A ring that is built stands for the list it is built to hold. From there on every change answers as
the list does, and after every change the ring shows the list that is left.
-/

namespace CyclicQueue

namespace Fifo

theorem capacity_pushRange (queue : Fifo) (bytes : List UInt8) (offset length : Nat) :
    (queue.pushRange bytes offset length).2.capacity = queue.capacity := by
  unfold pushRange
  repeat' split
  all_goals rfl

theorem capacity_remove (queue : Fifo) (count : Nat) (handed : ByteRing.Removed) :
    (queue.remove count handed).2.capacity = queue.capacity := by
  unfold remove
  repeat' split
  all_goals rfl

theorem capacity_update (queue : Fifo) (change : ByteRing.Update) :
    (queue.update change).2.capacity = queue.capacity := by
  cases change with
  | clear => rfl
  | push byte =>
    simp only [update]
    split <;> rfl
  | pushSlice bytes => exact queue.capacity_pushRange bytes 0 bytes.length
  | pushRange bytes offset length => exact queue.capacity_pushRange bytes offset length
  | pop =>
    simp only [update]
    split <;> rfl
  | take count => exact queue.capacity_remove count _
  | discard count => exact queue.capacity_remove count _

/-- The capacity is the same throughout a run. -/
theorem capacity_updates (queue : Fifo) (changes : List ByteRing.Update) :
    (queue.updates changes).2.capacity = queue.capacity := by
  induction changes generalizing queue with
  | nil => rfl
  | cons change changes ih => exact (ih _).trans (queue.capacity_update change)

end Fifo

namespace ByteRing

variable {ring : ByteRing} {queue : Fifo}

/-- Everything that a ring tells about a bounded list without changing it. -/
structure Shows (ring : ByteRing) (queue : Fifo) : Prop where
  slices : ring.slices.head ++ ring.slices.tail = queue.held
  capacity : ring.capacity = queue.capacity
  len : ring.len = queue.held.length
  free : ring.free = queue.capacity - queue.held.length
  bounded : queue.held.length ≤ queue.capacity
  hasRoom_iff : ∀ count, ring.hasRoom count = true ↔ count ≤ queue.capacity - queue.held.length
  isEmpty_iff : ring.isEmpty = true ↔ queue.held = []
  isFull_iff : ring.isFull = true ↔ queue.held.length = queue.capacity

theorem Valid.shows_fifo (h : ring.Valid) : ring.Shows ring.fifo where
  slices := rfl
  capacity := rfl
  len := h.length_toList.symm
  free := h.room_fifo.symm
  bounded := h.bounded_fifo
  hasRoom_iff count := by
    rw [hasRoom, decide_eq_true_iff, ← h.room_fifo]
    rfl
  isEmpty_iff := by
    rw [isEmpty, beq_iff_eq]
    exact h.toList_eq_nil_iff.symm
  isFull_iff := by
    rw [isFull, beq_iff_eq, Fifo.held_fifo, h.length_toList, Fifo.capacity_fifo]

/-- Every run of changes answers as the list's run does, and after each change of it the ring shows
the list that is left. -/
structure Refines (ring : ByteRing) (queue : Fifo) : Prop where
  outcomes : ∀ changes, (ring.updates changes).1 = (queue.updates changes).1
  shows : ∀ changes, (ring.updates changes).2.Shows (queue.updates changes).2
  capacity : ∀ changes, (queue.updates changes).2.capacity = queue.capacity

theorem Valid.refines_fifo (h : ring.Valid) : ring.Refines ring.fifo := by
  refine ⟨?_, ?_, ring.fifo.capacity_updates⟩
  · intro changes
    exact (h.updates_fifo changes).1
  · intro changes
    obtain ⟨-, hvalid, hfifo⟩ := h.updates_fifo changes
    exact hfifo ▸ hvalid.shows_fifo

/-- However a ring is built, it refines the bounded list that it is built to hold. -/
theorem built_refines (memory : Memory) :
    (∀ (recipe : Recipe) (ring : ByteRing), recipe.make memory = .ok ring →
      ∃ queue, recipe.queue? = some queue ∧ ring.Refines queue) ∧
    ∀ (source : ByteRing) (derivation : Derivation) (ring : ByteRing), source.Reachable →
      source.derive memory derivation = .ok ring → ring.Refines (derivation.queue source.fifo) := by
  constructor
  · intro recipe ring hmake
    obtain ⟨queue, hqueue, hfits, rfl⟩ := fresh_of_make hmake
    refine ⟨queue, hqueue, ?_⟩
    have hrefines := (valid_fresh hfits).refines_fifo
    rwa [fifo_fresh hfits] at hrefines
  · intro source derivation ring hsource hderive
    obtain ⟨hvalid, hfifo⟩ := hsource.valid.derive hderive
    exact hfifo ▸ hvalid.refines_fifo

/-- A slice that does not fit is refused and one byte after it is not. A realigned copy of the ring
starts from the same list. -/
theorem built_refines_two_slots :
    (Recipe.withCapacity 2).make .ordinary = .ok (blank 2) ∧ (blank 2).Reachable ∧
      (blank 2).derive .ordinary .realign = .ok (blank 2).realign ∧
      ((blank 2).updates [.push 7, .pushSlice [8, 9], .push 8, .push 9, .take 2]).1 =
        [.ok .nothing, .error (.tooSmall 2 1), .ok .nothing, .error .full,
          .ok (.bytes [7, 8])] ∧
      (blank 2).realign.Shows ⟨2, []⟩ := by
  have hmake : (Recipe.withCapacity 2).make .ordinary = .ok (blank 2) := rfl
  have hreach : (blank 2).Reachable := .made hmake
  obtain ⟨hbuilt, hderived⟩ := built_refines .ordinary
  obtain ⟨queue, hqueue, hrefines⟩ := hbuilt _ _ hmake
  cases hqueue
  have hcopy := hderived _ .realign _ hreach rfl
  refine ⟨hmake, hreach, rfl, ?_, ?_⟩
  · rw [hrefines.outcomes]
    decide
  · exact hcopy.shows []

end ByteRing

end CyclicQueue
