import CyclicQueue.Deque
import CyclicQueue.Proofs.SlotTracker.Moves

/-!
# A queue over tracked slots is a bounded list

A queue holds a list when the slots from the first one on hold its elements in order. An added
element goes to a slot that holds none of them, and a removal, also one that takes an emptied
tracker back to slot 0, touches no slot that is still occupied.
-/

namespace CyclicQueue.Deque

variable {α : Type} {deque : Deque α} {items : List α}

/-- The slots hold the elements of a list, one behind the other from the first slot on. -/
structure Holds (deque : Deque α) (items : List α) : Prop where
  valid : deque.tracker.Valid
  size_eq : deque.slots.size = deque.tracker.capacity
  len_eq : deque.tracker.len = items.length
  read : ∀ index < items.length,
    deque.slots[deque.tracker.slotAt index]? = items[index]?

/-! ## Moves and ends -/

namespace Holds

theorem reset (h : deque.Holds items) : Holds ⟨deque.tracker.reset, deque.slots⟩ [] :=
  ⟨h.valid.reset, h.size_eq, rfl, fun _ hindex => absurd hindex (Nat.not_lt_zero _)⟩

theorem settle (h : deque.Holds items) : Holds ⟨deque.tracker.settle, deque.slots⟩ items := by
  unfold SlotTracker.settle
  split
  · next hdrained =>
    rw [List.eq_nil_of_length_eq_zero (h.len_eq.symm.trans hdrained.1)]
    exact h.reset
  · exact h

theorem grownBack (h : deque.Holds items) (hroom : deque.tracker.len ≠ deque.tracker.maxLen)
    (value : α) :
    Holds ⟨deque.tracker.grownBack,
      deque.slots.setIfInBounds (deque.tracker.slotAt deque.tracker.len) value⟩
      (items ++ [value]) := by
  have hlen := h.valid.len_lt
  have hslot := h.valid.slotAt_lt deque.tracker.len
  refine ⟨h.valid.grownBack hroom, ?_, ?_, ?_⟩
  · exact Array.size_setIfInBounds.trans h.size_eq
  · rw [List.length_append, ← h.len_eq]
    rfl
  · intro index hindex
    rw [List.length_append, List.length_singleton] at hindex
    change (deque.slots.setIfInBounds _ value)[deque.tracker.slotAt index]? = _
    rcases Nat.lt_or_ge index items.length with hold | hnew
    · have hne : deque.tracker.slotAt deque.tracker.len ≠ deque.tracker.slotAt index := by
        intro heq
        have := h.valid.slotAt_injective hlen (by rw [h.len_eq] at hlen; omega) heq
        rw [h.len_eq] at this
        omega
      rw [Array.getElem?_setIfInBounds_ne hne, h.read index hold, List.getElem?_append_left hold]
    · obtain rfl : index = items.length := by omega
      rw [← h.len_eq, Array.getElem?_setIfInBounds_self_of_lt (h.size_eq ▸ hslot), h.len_eq,
        List.getElem?_concat_length]

theorem grownFront (h : deque.Holds items) (hroom : deque.tracker.len ≠ deque.tracker.maxLen)
    (value : α) :
    Holds ⟨deque.tracker.grownFront,
      deque.slots.setIfInBounds (deque.tracker.before deque.tracker.first) value⟩
      (value :: items) := by
  have hgrown := h.valid.grownFront hroom
  have hlen : items.length + 1 < deque.tracker.capacity := by
    rw [← h.len_eq]
    exact hgrown.len_lt
  have hfirst : deque.tracker.before deque.tracker.first = deque.tracker.grownFront.slotAt 0 :=
    hgrown.slotAt_zero.symm
  refine ⟨hgrown, ?_, ?_, ?_⟩
  · exact Array.size_setIfInBounds.trans h.size_eq
  · rw [List.length_cons, ← h.len_eq]
    rfl
  · intro index hindex
    change (deque.slots.setIfInBounds _ value)[deque.tracker.grownFront.slotAt index]? = _
    rw [hfirst]
    cases index with
    | zero =>
      rw [Array.getElem?_setIfInBounds_self_of_lt (h.size_eq ▸ hgrown.slotAt_lt 0)]
      rfl
    | succ index =>
      rw [List.length_cons] at hindex
      have hne : deque.tracker.grownFront.slotAt 0 ≠
          deque.tracker.grownFront.slotAt (index + 1) := by
        intro heq
        have hindex' : index + 1 < deque.tracker.capacity := by omega
        cases hgrown.slotAt_injective h.valid.capacity_pos hindex' heq
      rw [Array.getElem?_setIfInBounds_ne hne, h.valid.slotAt_grownFront, h.read index (by omega)]
      rfl

theorem shrunkFront (h : deque.Holds items) (hsome : deque.tracker.len ≠ 0) :
    Holds ⟨deque.tracker.shrunkFront, deque.slots⟩ items.tail := by
  refine ⟨h.valid.shrunkFront hsome, h.size_eq, ?_, ?_⟩
  · rw [List.length_tail, ← h.len_eq]
    rfl
  · intro index hindex
    rw [List.length_tail] at hindex
    rw [SlotTracker.slotAt_shrunkFront, h.read (index + 1) (by omega), List.getElem?_tail]

theorem shrunkBack (h : deque.Holds items) (hsome : deque.tracker.len ≠ 0) :
    Holds ⟨deque.tracker.shrunkBack, deque.slots⟩ items.dropLast := by
  refine ⟨h.valid.shrunkBack hsome, h.size_eq, ?_, ?_⟩
  · rw [List.length_dropLast, ← h.len_eq]
    rfl
  · intro index hindex
    rw [List.length_dropLast] at hindex
    rw [List.getElem?_dropLast, if_pos hindex]
    exact h.read index (by omega)

theorem length_le (h : deque.Holds items) : items.length ≤ deque.tracker.maxLen :=
  h.len_eq ▸ h.valid.len_le

theorem length_lt_iff (h : deque.Holds items) :
    items.length < deque.tracker.maxLen ↔ ¬deque.tracker.len = deque.tracker.maxLen := by
  have hle := h.length_le
  rw [h.len_eq]
  omega

theorem len_eq_zero_iff (h : deque.Holds items) : deque.tracker.len = 0 ↔ items = [] := by
  rw [h.len_eq, List.length_eq_zero_iff]

theorem firstSlot?_bind (h : deque.Holds items) :
    deque.tracker.firstSlot?.bind (deque.slots[·]?) = items.head? := by
  rw [h.valid.firstSlot?_eq, List.head?_eq_getElem?]
  by_cases hzero : deque.tracker.len = 0
  · rw [if_pos hzero, h.len_eq_zero_iff.1 hzero]
    rfl
  · rw [if_neg hzero]
    rw [h.len_eq] at hzero
    exact h.read 0 (Nat.pos_of_ne_zero hzero)

theorem lastSlot?_bind (h : deque.Holds items) :
    deque.tracker.lastSlot?.bind (deque.slots[·]?) = items.getLast? := by
  rw [h.valid.lastSlot?_eq, List.getLast?_eq_getElem?]
  by_cases hzero : deque.tracker.len = 0
  · rw [if_pos hzero, h.len_eq_zero_iff.1 hzero]
    rfl
  · rw [if_neg hzero, h.len_eq]
    rw [h.len_eq] at hzero
    exact h.read (items.length - 1) (by omega)

theorem toList_eq (h : deque.Holds items) : deque.toList = items := by
  have hread : (List.range items.length).map deque.get? = items.map some := by
    apply List.ext_getElem?
    intro index
    rcases Nat.lt_or_ge index items.length with hlt | hge
    · have hget : deque.get? index = some items[index] :=
        (h.read index hlt).trans (List.getElem?_eq_getElem hlt)
      rw [List.getElem?_map, List.getElem?_range hlt, List.getElem?_map,
        List.getElem?_eq_getElem hlt, Option.map_some, Option.map_some, hget]
    · rw [List.getElem?_eq_none (by simpa using hge), List.getElem?_eq_none (by simpa using hge)]
  rw [toList, h.len_eq, ← Function.id_comp deque.get?, ← List.filterMap_map, hread]
  simp

/-! ## Changes -/

theorem pushBack (h : deque.Holds items) (value : α) :
    (deque.change (.pushBack value)).1 =
        ((Change.pushBack value).onList deque.tracker.maxLen items).1 ∧
      (deque.change (.pushBack value)).2.Holds
        ((Change.pushBack value).onList deque.tracker.maxLen items).2 := by
  simp only [change, Deque.pushBack, h.valid.addLast_eq, h.valid.nextLast?_eq, Change.onList,
    h.length_lt_iff]
  by_cases hfull : deque.tracker.len = deque.tracker.maxLen
  · rw [if_pos hfull, if_pos hfull, if_neg (absurd hfull)]
    exact ⟨rfl, h⟩
  · rw [if_neg hfull, if_neg hfull, if_pos hfull]
    exact ⟨rfl, h.grownBack hfull value⟩

theorem pushFront (h : deque.Holds items) (value : α) :
    (deque.change (.pushFront value)).1 =
        ((Change.pushFront value).onList deque.tracker.maxLen items).1 ∧
      (deque.change (.pushFront value)).2.Holds
        ((Change.pushFront value).onList deque.tracker.maxLen items).2 := by
  simp only [change, Deque.pushFront, h.valid.addFirst_eq, h.valid.nextFirst?_eq, Change.onList,
    h.length_lt_iff]
  by_cases hfull : deque.tracker.len = deque.tracker.maxLen
  · rw [if_pos hfull, if_pos hfull, if_neg (absurd hfull)]
    exact ⟨rfl, h⟩
  · rw [if_neg hfull, if_neg hfull, if_pos hfull]
    by_cases hzero : deque.tracker.len = 0
    · -- the first element of all goes where one added at the back would go
      have hgrown := h.grownBack hfull value
      obtain rfl := h.len_eq_zero_iff.1 hzero
      rw [hzero, h.valid.slotAt_zero] at hgrown
      rw [if_pos hzero, if_pos hzero]
      exact ⟨rfl, hgrown⟩
    · rw [if_neg hzero, if_neg hzero]
      exact ⟨rfl, h.grownFront hfull value⟩

theorem popFront (h : deque.Holds items) :
    (deque.change .popFront).1 = (Change.popFront.onList deque.tracker.maxLen items).1 ∧
      (deque.change .popFront).2.Holds
        (Change.popFront.onList deque.tracker.maxLen items).2 := by
  simp only [change, Deque.popFront, h.firstSlot?_bind, h.valid.removeFirst_eq, Change.onList]
  by_cases hzero : deque.tracker.len = 0
  · rw [if_pos hzero]
    obtain rfl := h.len_eq_zero_iff.1 hzero
    exact ⟨rfl, h⟩
  · obtain ⟨first, rest, rfl⟩ := List.exists_cons_of_ne_nil (mt h.len_eq_zero_iff.2 hzero)
    rw [if_neg hzero]
    exact ⟨rfl, (h.shrunkFront hzero).settle⟩

theorem popBack (h : deque.Holds items) :
    (deque.change .popBack).1 = (Change.popBack.onList deque.tracker.maxLen items).1 ∧
      (deque.change .popBack).2.Holds (Change.popBack.onList deque.tracker.maxLen items).2 := by
  simp only [change, Deque.popBack, h.lastSlot?_bind, h.valid.removeLast_eq, Change.onList]
  by_cases hzero : deque.tracker.len = 0
  · rw [if_pos hzero]
    obtain rfl := h.len_eq_zero_iff.1 hzero
    exact ⟨rfl, h⟩
  · have hlast := List.getLast?_eq_some_getLast (mt h.len_eq_zero_iff.2 hzero)
    rw [if_neg hzero, hlast]
    exact ⟨rfl, (h.shrunkBack hzero).settle⟩

/-- One change of a queue is the change of the list that it holds. -/
theorem change (h : deque.Holds items) (change : Change α) :
    (deque.change change).1 = (change.onList deque.tracker.maxLen items).1 ∧
      (deque.change change).2.Holds (change.onList deque.tracker.maxLen items).2 := by
  cases change with
  | pushBack value => exact h.pushBack value
  | pushFront value => exact h.pushFront value
  | popFront => exact h.popFront
  | popBack => exact h.popBack
  | clear => exact ⟨rfl, h.reset⟩

theorem maxLen_change (h : deque.Holds items) (change : Change α) :
    (deque.change change).2.tracker.maxLen = deque.tracker.maxLen := by
  have hsize := deque.size_slots_change change
  have hnew := (h.change change).2.size_eq
  rw [SlotTracker.maxLen, SlotTracker.maxLen, ← hnew, hsize, h.size_eq]

end Holds

/-- Carries out one change after the other on a plain list of at most `limit` elements. -/
def Change.allOnList (limit : Nat) (items : List α) : List (Change α) → List (Outcome α) × List α
  | [] => ([], items)
  | first :: rest =>
    let (outcome, items) := first.onList limit items
    let (outcomes, items) := allOnList limit items rest
    (outcome :: outcomes, items)

/-- A run of changes answers as the run of the list does, and ends where it ends. -/
theorem Holds.changes (h : deque.Holds items) (changes : List (Change α)) :
    (deque.changes changes).1 = (Change.allOnList deque.tracker.maxLen items changes).1 ∧
      (deque.changes changes).2.Holds
        (Change.allOnList deque.tracker.maxLen items changes).2 ∧
      (deque.changes changes).2.tracker.maxLen = deque.tracker.maxLen := by
  induction changes generalizing deque items with
  | nil => exact ⟨rfl, h, rfl⟩
  | cons change changes ih =>
    obtain ⟨houtcome, hheld⟩ := h.change change
    obtain ⟨houtcomes, hlast, hlimit⟩ := ih hheld
    rw [h.maxLen_change change] at houtcomes hlast hlimit
    refine ⟨?_, hlast, hlimit⟩
    simp only [Deque.changes, Change.allOnList, houtcome, houtcomes]

/-! ## What a queue tells -/

/-- Everything that a queue and its tracker tell about a list of at most `limit` elements. -/
structure Shows (limit : Nat) (deque : Deque α) (items : List α) : Prop where
  toList_eq : deque.toList = items
  len_eq : deque.tracker.len = items.length
  length_le : items.length ≤ limit
  maxLen_eq : deque.tracker.maxLen = limit
  isEmpty_iff : deque.tracker.isEmpty = true ↔ items = []
  isFull_iff : deque.tracker.isFull = true ↔ items.length = limit
  nextLast?_iff : deque.tracker.nextLast? = none ↔ items.length = limit
  nextFirst?_iff : deque.tracker.nextFirst? = none ↔ items.length = limit
  addLast_iff : deque.tracker.addLast.1 = false ↔ items.length = limit
  addFirst_iff : deque.tracker.addFirst.1 = false ↔ items.length = limit
  firstSlot?_iff : deque.tracker.firstSlot? = none ↔ items = []
  lastSlot?_iff : deque.tracker.lastSlot? = none ↔ items = []
  removeFirst_iff : deque.tracker.removeFirst.1 = false ↔ items = []
  removeLast_iff : deque.tracker.removeLast.1 = false ↔ items = []
  first_eq : deque.tracker.firstSlot?.bind (deque.slots[·]?) = items.head?
  last_eq : deque.tracker.lastSlot?.bind (deque.slots[·]?) = items.getLast?
  /-- An element added at the back lies in the slot that was named for it. -/
  lastSlot?_addLast : deque.tracker.addLast.1 = true →
    deque.tracker.addLast.2.lastSlot? = deque.tracker.nextLast?
  /-- An element added at the front lies in the slot that was named for it. -/
  firstSlot?_addFirst : deque.tracker.addFirst.1 = true →
    deque.tracker.addFirst.2.firstSlot? = deque.tracker.nextFirst?

theorem Holds.shows (h : deque.Holds items) : Shows deque.tracker.maxLen deque items where
  toList_eq := h.toList_eq
  len_eq := h.len_eq
  length_le := h.length_le
  maxLen_eq := rfl
  isEmpty_iff := h.valid.isEmpty_iff.trans h.len_eq_zero_iff
  isFull_iff := h.len_eq ▸ h.valid.isFull_iff
  nextLast?_iff := h.len_eq ▸ h.valid.nextLast?_eq_none_iff
  nextFirst?_iff := h.len_eq ▸ h.valid.nextFirst?_eq_none_iff
  addLast_iff := h.len_eq ▸ h.valid.addLast_eq_false_iff
  addFirst_iff := h.len_eq ▸ h.valid.addFirst_eq_false_iff
  firstSlot?_iff := h.valid.firstSlot?_eq_none_iff.trans h.len_eq_zero_iff
  lastSlot?_iff := h.valid.lastSlot?_eq_none_iff.trans h.len_eq_zero_iff
  removeFirst_iff := h.valid.removeFirst_eq_false_iff.trans h.len_eq_zero_iff
  removeLast_iff := h.valid.removeLast_eq_false_iff.trans h.len_eq_zero_iff
  first_eq := h.firstSlot?_bind
  last_eq := h.lastSlot?_bind
  lastSlot?_addLast := h.valid.lastSlot?_addLast
  firstSlot?_addFirst := h.valid.firstSlot?_addFirst

/-- Every run of changes answers as the list's run does, and after each change of it the queue
shows the list that is left. -/
structure Follows (limit : Nat) (deque : Deque α) (items : List α) : Prop where
  outcomes : ∀ changes, (deque.changes changes).1 = (Change.allOnList limit items changes).1
  shows : ∀ changes,
    Shows limit (deque.changes changes).2 (Change.allOnList limit items changes).2

theorem Holds.follows (h : deque.Holds items) : Follows deque.tracker.maxLen deque items := by
  constructor
  · intro changes
    exact (h.changes changes).1
  · intro changes
    obtain ⟨-, hheld, hlimit⟩ := h.changes changes
    exact hlimit ▸ hheld.shows

/-- A tracker that is built over slots that hold a list makes a queue that holds it. -/
theorem holds_of_build {capacity first : Nat} (options : SlotTracker.Options) {slots : Array α}
    (hfirst : first < capacity) (hlen : items.length ≤ capacity - 1)
    (hsize : slots.size = capacity)
    (hread : ∀ index < items.length, slots[Cursor.forward capacity first index]? = items[index]?) :
    ∃ tracker, SlotTracker.build capacity first items.length options = .ok tracker ∧
      tracker.maxLen = capacity - 1 ∧ Holds ⟨tracker, slots⟩ items := by
  have hbuild : SlotTracker.build capacity first items.length options =
      .ok ⟨capacity, first, Cursor.forward capacity first items.length, items.length,
        options⟩ := by
    rw [SlotTracker.build, if_neg (by omega), if_neg (by omega), if_neg (by omega)]
  exact ⟨_, hbuild, rfl, SlotTracker.valid_of_build hbuild, hsize, rfl, hread⟩

end CyclicQueue.Deque
