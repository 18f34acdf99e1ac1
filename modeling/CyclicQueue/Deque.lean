import CyclicQueue.SlotTracker.Basic

/-!
# A double-ended queue over tracked slots

The elements lie in an array of as many slots as the tracker has. An element is written to the slot
that the tracker names before the slot is occupied, and read from it before the slot is freed.
`toList` is what the queue holds, and `Change.onList` tells every change on a plain list that is not
to grow beyond a limit.
-/

namespace CyclicQueue

/-- A double-ended queue: a tracker and the slots that it tracks. -/
structure Deque (α : Type) where
  tracker : SlotTracker
  slots : Array α
  deriving Repr

namespace Deque

variable {α : Type}

/-- Writes a value to a slot, if there is one. -/
def store (slots : Array α) (slot : Option Nat) (value : α) : Array α :=
  match slot with
  | none => slots
  | some slot => slots.setIfInBounds slot value

/-- The element `index` places after the first one. -/
def get? (deque : Deque α) (index : Nat) : Option α :=
  deque.slots[Cursor.forward deque.tracker.capacity deque.tracker.first index]?

/-- The elements, first one first. -/
def toList (deque : Deque α) : List α :=
  (List.range deque.tracker.len).filterMap deque.get?

/-- Adds a value behind the last element, and tells whether there was a slot for it. -/
def pushBack (deque : Deque α) (value : α) : Bool × Deque α :=
  let slot := deque.tracker.nextLast?
  let (done, tracker) := deque.tracker.addLast
  (done, ⟨tracker, store deque.slots slot value⟩)

/-- Adds a value before the first element, and tells whether there was a slot for it. -/
def pushFront (deque : Deque α) (value : α) : Bool × Deque α :=
  let slot := deque.tracker.nextFirst?
  let (done, tracker) := deque.tracker.addFirst
  (done, ⟨tracker, store deque.slots slot value⟩)

def popFront (deque : Deque α) : Option α × Deque α :=
  (deque.tracker.firstSlot?.bind (deque.slots[·]?),
    { deque with tracker := deque.tracker.removeFirst.2 })

def popBack (deque : Deque α) : Option α × Deque α :=
  (deque.tracker.lastSlot?.bind (deque.slots[·]?),
    { deque with tracker := deque.tracker.removeLast.2 })

def clear (deque : Deque α) : Deque α :=
  { deque with tracker := deque.tracker.reset }

inductive Change (α : Type) where
  | pushBack (value : α)
  | pushFront (value : α)
  | popFront
  | popBack
  | clear
  deriving DecidableEq, Repr

/-- What a change answers: whether it was possible, and the element it removed. -/
structure Outcome (α : Type) where
  done : Bool
  removed : Option α
  deriving DecidableEq, Repr

def Outcome.removing (removed : Option α) : Outcome α :=
  ⟨removed.isSome, removed⟩

def change (deque : Deque α) : Change α → Outcome α × Deque α
  | .pushBack value =>
    let (done, deque) := deque.pushBack value
    (⟨done, none⟩, deque)
  | .pushFront value =>
    let (done, deque) := deque.pushFront value
    (⟨done, none⟩, deque)
  | .popFront =>
    let (removed, left) := deque.popFront
    (⟨deque.tracker.removeFirst.1, removed⟩, left)
  | .popBack =>
    let (removed, left) := deque.popBack
    (⟨deque.tracker.removeLast.1, removed⟩, left)
  | .clear => (⟨true, none⟩, deque.clear)

/-- Carries out a change on a plain list of at most `limit` elements. -/
def Change.onList (limit : Nat) (items : List α) : Change α → Outcome α × List α
  | .pushBack value =>
    if items.length < limit then (⟨true, none⟩, items ++ [value]) else (⟨false, none⟩, items)
  | .pushFront value =>
    if items.length < limit then (⟨true, none⟩, value :: items) else (⟨false, none⟩, items)
  | .popFront => (.removing items.head?, items.tail)
  | .popBack => (.removing items.getLast?, items.dropLast)
  | .clear => (⟨true, none⟩, [])

def changes (deque : Deque α) : List (Change α) → List (Outcome α) × Deque α
  | [] => ([], deque)
  | first :: rest =>
    let (outcome, deque) := deque.change first
    let (outcomes, deque) := deque.changes rest
    (outcome :: outcomes, deque)

@[simp] theorem size_store (slots : Array α) (slot : Option Nat) (value : α) :
    (store slots slot value).size = slots.size := by
  cases slot with
  | none => rfl
  | some slot => exact Array.size_setIfInBounds

/-- The slots keep their number. -/
theorem size_slots_change (deque : Deque α) (change : Change α) :
    (deque.change change).2.slots.size = deque.slots.size := by
  cases change with
  | pushBack value => exact size_store ..
  | pushFront value => exact size_store ..
  | popFront => rfl
  | popBack => rfl
  | clear => rfl

end Deque

end CyclicQueue
