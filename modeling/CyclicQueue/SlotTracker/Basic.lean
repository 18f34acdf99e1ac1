import CyclicQueue.Cursor
import CyclicQueue.Fault
import CyclicQueue.SlotTracker.Options

/-!
# The occupied slots of a cyclic queue

A tracker says which slots of a cyclic storage a queue occupies; the storage is the caller's.
Elements are added and removed at both ends. One slot always stays free, so the cursors meet only
where the queue is empty, and whether it is empty or full is read off the cursors alone. `Valid`
ties the cursors to the length.
-/

namespace CyclicQueue

/-- The occupied slots of a cyclic queue. -/
structure SlotTracker where
  capacity : Nat
  /-- The slot of the first element. -/
  first : Nat
  /-- The slot after the last element. -/
  next : Nat
  len : Nat
  options : SlotTracker.Options
  deriving DecidableEq, Repr

namespace SlotTracker

/-- The most elements a tracker can hold. -/
def maxLen (tracker : SlotTracker) : Nat :=
  tracker.capacity - 1

def resetOnZero (tracker : SlotTracker) : Bool :=
  tracker.options.resetOnZero

/-- How cursors and length fit together. -/
structure Valid (tracker : SlotTracker) : Prop where
  first_lt : tracker.first < tracker.capacity
  len_le : tracker.len ≤ tracker.maxLen
  next_eq : tracker.next = Cursor.forward tracker.capacity tracker.first tracker.len

def after (tracker : SlotTracker) (slot : Nat) : Nat :=
  Cursor.forward tracker.capacity slot 1

def before (tracker : SlotTracker) (slot : Nat) : Nat :=
  Cursor.back tracker.capacity slot 1

def isEmpty (tracker : SlotTracker) : Bool :=
  tracker.first == tracker.next

def isFull (tracker : SlotTracker) : Bool :=
  tracker.after tracker.next == tracker.first

/-! ## Building -/

/-- A tracker of `len` elements from slot `first` on. -/
def build (capacity first len : Nat) (options : Options) : Except Fault SlotTracker :=
  if capacity = 0 then .error (.badArgument .capacityNotPositive)
  else if capacity ≤ first then .error (.badArgument .firstOutOfRange)
  else if capacity - 1 < len then .error (.badArgument .sizeAboveMaximum)
  else .ok ⟨capacity, first, Cursor.forward capacity first len, len, options⟩

/-- An empty tracker at slot 0. -/
def ofCapacity (capacity : Nat) : Except Fault SlotTracker :=
  build capacity 0 0 {}

/-- A tracker of `len` elements from slot `first` on. -/
def withPosition (capacity first len : Nat) : Except Fault SlotTracker :=
  build capacity first len {}

/-- An empty tracker at slot 0 with the given options. -/
def withOptions (capacity : Nat) (options : Options) : Except Fault SlotTracker :=
  build capacity 0 0 options

theorem valid_of_build {capacity first len : Nat} {options : Options} {tracker : SlotTracker}
    (h : build capacity first len options = .ok tracker) : tracker.Valid := by
  unfold build at h
  split at h
  · cases h
  · split at h
    · cases h
    · split at h
      · cases h
      · cases h
        refine ⟨by simp only; omega, ?_, rfl⟩
        simp only [maxLen]
        omega

/-! ## Slots -/

def firstSlot? (tracker : SlotTracker) : Option Nat :=
  if tracker.isEmpty then none else some tracker.first

def lastSlot? (tracker : SlotTracker) : Option Nat :=
  if tracker.isEmpty then none else some (tracker.before tracker.next)

/-- The slot that `addFirst` would occupy. -/
def nextFirst? (tracker : SlotTracker) : Option Nat :=
  if tracker.isFull then none
  else if tracker.isEmpty then some tracker.first
  else some (tracker.before tracker.first)

/-- The slot that `addLast` would occupy. -/
def nextLast? (tracker : SlotTracker) : Option Nat :=
  if tracker.isFull then none
  else if tracker.isEmpty then some tracker.first
  else some tracker.next

/-! ## Moves -/

/-- Drops all elements and takes both cursors to slot 0. -/
def reset (tracker : SlotTracker) : SlotTracker :=
  { tracker with first := 0, next := 0, len := 0 }

/-- Takes an empty tracker to slot 0 if its options say so. -/
def settle (tracker : SlotTracker) : SlotTracker :=
  if tracker.len = 0 ∧ tracker.resetOnZero then tracker.reset else tracker

/-- Occupies the slot after the last element, unless the tracker is full. -/
def addLast (tracker : SlotTracker) : Bool × SlotTracker :=
  if tracker.isFull then (false, tracker)
  else (true, { tracker with next := tracker.after tracker.next, len := tracker.len + 1 })

/-- Occupies the slot before the first element, unless the tracker is full. The first element of
all goes where `addLast` would put it. -/
def addFirst (tracker : SlotTracker) : Bool × SlotTracker :=
  if tracker.isFull then (false, tracker)
  else if tracker.isEmpty then
    (true, { tracker with next := tracker.after tracker.next, len := tracker.len + 1 })
  else (true, { tracker with first := tracker.before tracker.first, len := tracker.len + 1 })

/-- Frees the slot of the first element, unless the tracker is empty. -/
def removeFirst (tracker : SlotTracker) : Bool × SlotTracker :=
  if tracker.isEmpty then (false, tracker)
  else
    (true,
      settle { tracker with first := tracker.after tracker.first, len := tracker.len - 1 })

/-- Frees the slot of the last element, unless the tracker is empty. -/
def removeLast (tracker : SlotTracker) : Bool × SlotTracker :=
  if tracker.isEmpty then (false, tracker)
  else
    (true,
      settle { tracker with next := tracker.before tracker.next, len := tracker.len - 1 })

inductive Move where
  | addLast
  | addFirst
  | removeFirst
  | removeLast
  | reset
  deriving DecidableEq, Repr

def move (tracker : SlotTracker) : Move → Bool × SlotTracker
  | .addLast => tracker.addLast
  | .addFirst => tracker.addFirst
  | .removeFirst => tracker.removeFirst
  | .removeLast => tracker.removeLast
  | .reset => (true, tracker.reset)

def moves (tracker : SlotTracker) : List Move → List Bool × SlotTracker
  | [] => ([], tracker)
  | step :: steps =>
    let (done, tracker) := tracker.move step
    let (rest, tracker) := tracker.moves steps
    (done :: rest, tracker)

end SlotTracker

end CyclicQueue
