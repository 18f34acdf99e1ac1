import CyclicQueue.SlotTracker.Sight

/-!
# Trackers in words

A tracker whose slot numbers and length are words of 64 bits. Nothing is tested on the way: a sum
or a difference that is no word is taken modulo `2 ^ 64`.
-/

namespace CyclicQueue

structure WordTracker where
  capacity : UInt64
  first : UInt64
  next : UInt64
  len : UInt64
  options : SlotTracker.Options
  deriving DecidableEq, Repr

namespace WordTracker

open SlotTracker (Options Sight Move Observation)

/-- The tracker that the words stand for. -/
def value (words : WordTracker) : SlotTracker where
  capacity := words.capacity.toNat
  first := words.first.toNat
  next := words.next.toNat
  len := words.len.toNat
  options := words.options

def after (words : WordTracker) (slot : UInt64) : UInt64 :=
  (slot + 1) % words.capacity

def before (words : WordTracker) (slot : UInt64) : UInt64 :=
  (slot + words.capacity - 1) % words.capacity

def isEmpty (words : WordTracker) : Bool :=
  words.first == words.next

def isFull (words : WordTracker) : Bool :=
  words.after words.next == words.first

def build (capacity first len : UInt64) (options : Options) : Except Fault WordTracker :=
  if capacity = 0 then .error (.badArgument .capacityNotPositive)
  else if capacity ≤ first then .error (.badArgument .firstOutOfRange)
  else if capacity - 1 < len then .error (.badArgument .sizeAboveMaximum)
  else .ok ⟨capacity, first, (first + len) % capacity, len, options⟩

/-! ## Slots -/

def firstSlot? (words : WordTracker) : Option UInt64 :=
  if words.isEmpty then none else some words.first

def lastSlot? (words : WordTracker) : Option UInt64 :=
  if words.isEmpty then none else some (words.before words.next)

def nextFirst? (words : WordTracker) : Option UInt64 :=
  if words.isFull then none
  else if words.isEmpty then some words.first
  else some (words.before words.first)

def nextLast? (words : WordTracker) : Option UInt64 :=
  if words.isFull then none
  else if words.isEmpty then some words.first
  else some words.next

def sight (words : WordTracker) : Sight where
  capacity := words.capacity.toNat
  resetOnZero := words.options.resetOnZero
  len := words.len.toNat
  firstSlot? := words.firstSlot?.map UInt64.toNat
  lastSlot? := words.lastSlot?.map UInt64.toNat
  nextFirst? := words.nextFirst?.map UInt64.toNat
  nextLast? := words.nextLast?.map UInt64.toNat

/-! ## Moves -/

def reset (words : WordTracker) : WordTracker :=
  { words with first := 0, next := 0, len := 0 }

def settle (words : WordTracker) : WordTracker :=
  if words.len = 0 ∧ words.options.resetOnZero then words.reset else words

def addLast (words : WordTracker) : Bool × WordTracker :=
  if words.isFull then (false, words)
  else (true, { words with next := words.after words.next, len := words.len + 1 })

def addFirst (words : WordTracker) : Bool × WordTracker :=
  if words.isFull then (false, words)
  else if words.isEmpty then
    (true, { words with next := words.after words.next, len := words.len + 1 })
  else (true, { words with first := words.before words.first, len := words.len + 1 })

def removeFirst (words : WordTracker) : Bool × WordTracker :=
  if words.isEmpty then (false, words)
  else (true, settle { words with first := words.after words.first, len := words.len - 1 })

def removeLast (words : WordTracker) : Bool × WordTracker :=
  if words.isEmpty then (false, words)
  else (true, settle { words with next := words.before words.next, len := words.len - 1 })

def move (words : WordTracker) : Move → Bool × WordTracker
  | .addLast => words.addLast
  | .addFirst => words.addFirst
  | .removeFirst => words.removeFirst
  | .removeLast => words.removeLast
  | .reset => (true, words.reset)

def moves (words : WordTracker) : List Move → List Bool × WordTracker
  | [] => ([], words)
  | step :: steps =>
    let (done, words) := words.move step
    let (rest, words) := words.moves steps
    (done :: rest, words)

def observe (words : WordTracker) (done : Bool) : Observation :=
  ⟨done, words.isEmpty, words.isFull, words.sight⟩

/-- What is observed move by move. -/
def watch (words : WordTracker) : List Move → List Observation
  | [] => []
  | step :: steps =>
    let (done, words) := words.move step
    words.observe done :: words.watch steps

end WordTracker

end CyclicQueue
