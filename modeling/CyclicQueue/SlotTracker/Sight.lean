import CyclicQueue.SlotTracker.Basic

/-!
# What is seen of a tracker

The cursors of a tracker are hidden. It tells its number of slots, its length, whether it starts
again at slot 0, and the slots at its ends and beside them: none at the ends while it is empty, none
beside them while it is full.
-/

namespace CyclicQueue.SlotTracker

structure Sight where
  capacity : Nat
  resetOnZero : Bool
  len : Nat
  firstSlot? : Option Nat
  lastSlot? : Option Nat
  nextFirst? : Option Nat
  nextLast? : Option Nat
  deriving DecidableEq, Repr

def sight (tracker : SlotTracker) : Sight where
  capacity := tracker.capacity
  resetOnZero := tracker.resetOnZero
  len := tracker.len
  firstSlot? := tracker.firstSlot?
  lastSlot? := tracker.lastSlot?
  nextFirst? := tracker.nextFirst?
  nextLast? := tracker.nextLast?

/-- The answer of a move, and all that the tracker tells after it. -/
structure Observation where
  done : Bool
  isEmpty : Bool
  isFull : Bool
  sight : Sight
  deriving DecidableEq, Repr

def observe (tracker : SlotTracker) (done : Bool) : Observation :=
  ⟨done, tracker.isEmpty, tracker.isFull, tracker.sight⟩

/-- What is observed move by move. -/
def watch (tracker : SlotTracker) : List Move → List Observation
  | [] => []
  | step :: steps =>
    let (done, tracker) := tracker.move step
    tracker.observe done :: tracker.watch steps

end CyclicQueue.SlotTracker
