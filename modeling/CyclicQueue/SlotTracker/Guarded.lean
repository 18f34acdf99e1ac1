import CyclicQueue.Machine
import CyclicQueue.SlotTracker.Session
import CyclicQueue.SlotTracker.Sight

/-!
# Trackers on the machine, step by step

The moves of a tracker as chains of machine steps: every sum and difference is carried out in words,
the cursor arithmetic tests that its slot and its distance lie on the cycle, and a removal tests
afterwards that the cursors still lie `len` slots apart.
-/

namespace CyclicQueue.SlotTracker.Guarded

open Machine

def build (capacity first len : Nat) (options : Options) : Steps (Except Fault SlotTracker) := do
  if capacity = 0 then return .error (.badArgument .capacityNotPositive)
  else if capacity ≤ first then return .error (.badArgument .firstOutOfRange)
  else if (← sub capacity 1) < len then return .error (.badArgument .sizeAboveMaximum)
  else
    let next ← mod (← add first len) capacity
    return .ok ⟨capacity, first, next, len, options⟩

def after (tracker : SlotTracker) (slot : Nat) : Steps Nat :=
  forward tracker.capacity slot 1

def before (tracker : SlotTracker) (slot : Nat) : Steps Nat :=
  back tracker.capacity slot 1

def isFull (tracker : SlotTracker) : Steps Bool := do
  return (← after tracker tracker.next) == tracker.first

/-! ## Slots -/

def lastSlot? (tracker : SlotTracker) : Steps (Option Nat) := do
  if tracker.isEmpty then
    return none
  else
    return some (← before tracker tracker.next)

def nextFirst? (tracker : SlotTracker) : Steps (Option Nat) := do
  if ← isFull tracker then
    return none
  else if tracker.isEmpty then
    return some tracker.first
  else
    return some (← before tracker tracker.first)

def nextLast? (tracker : SlotTracker) : Steps (Option Nat) := do
  if ← isFull tracker then
    return none
  else if tracker.isEmpty then
    return some tracker.first
  else
    return some tracker.next

def sight (tracker : SlotTracker) : Steps Sight := do
  return {
    capacity := tracker.capacity
    resetOnZero := tracker.resetOnZero
    len := tracker.len
    firstSlot? := tracker.firstSlot?
    lastSlot? := ← lastSlot? tracker
    nextFirst? := ← nextFirst? tracker
    nextLast? := ← nextLast? tracker }

/-! ## Moves -/

/-- Takes an empty tracker to slot 0 if its options say so, and tests where the cursors stand. -/
def settle (tracker : SlotTracker) : Steps SlotTracker := do
  let settled := tracker.settle
  require (settled.next == (← mod (← add settled.first settled.len) settled.capacity))
  return settled

def addLast (tracker : SlotTracker) : Steps (Bool × SlotTracker) := do
  if ← isFull tracker then
    return (false, tracker)
  else
    let next ← after tracker tracker.next
    return (true, { tracker with next, len := ← add tracker.len 1 })

def addFirst (tracker : SlotTracker) : Steps (Bool × SlotTracker) := do
  if ← isFull tracker then
    return (false, tracker)
  else if tracker.isEmpty then
    let next ← after tracker tracker.next
    return (true, { tracker with next, len := ← add tracker.len 1 })
  else
    let first ← before tracker tracker.first
    return (true, { tracker with first, len := ← add tracker.len 1 })

def removeFirst (tracker : SlotTracker) : Steps (Bool × SlotTracker) := do
  if tracker.isEmpty then
    return (false, tracker)
  else
    let first ← after tracker tracker.first
    return (true, ← settle { tracker with first, len := ← sub tracker.len 1 })

def removeLast (tracker : SlotTracker) : Steps (Bool × SlotTracker) := do
  if tracker.isEmpty then
    return (false, tracker)
  else
    let next ← before tracker tracker.next
    return (true, ← settle { tracker with next, len := ← sub tracker.len 1 })

def move (tracker : SlotTracker) : Move → Steps (Bool × SlotTracker)
  | .addLast => addLast tracker
  | .addFirst => addFirst tracker
  | .removeFirst => removeFirst tracker
  | .removeLast => removeLast tracker
  | .reset => return (true, tracker.reset)

def observe (tracker : SlotTracker) (done : Bool) : Steps Observation := do
  return ⟨done, tracker.isEmpty, ← isFull tracker, ← sight tracker⟩

/-- What is observed move by move. -/
def watch (tracker : SlotTracker) : List Move → Steps (List Observation)
  | [] => return []
  | step :: steps => do
    let (done, tracker) ← move tracker step
    let seen ← observe tracker done
    return seen :: (← watch tracker steps)

end CyclicQueue.SlotTracker.Guarded
