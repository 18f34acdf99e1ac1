import CyclicQueue.ByteRing.Update

/-!
# Bounded queues as plain lists

A queue is its capacity and the list of the bytes it holds, oldest byte first. Every change is told
on the list alone, without a storage and without cursors. `fifo` is the queue that a ring stands
for.
-/

namespace CyclicQueue

/-- A bounded queue of bytes as a plain list, oldest byte first. -/
structure Fifo where
  capacity : Nat
  held : List UInt8
  deriving DecidableEq, Repr

/-- The queue that a ring stands for. -/
def ByteRing.fifo (ring : ByteRing) : Fifo where
  capacity := ring.capacity
  held := ring.toList

namespace Fifo

/-- The number of bytes that still fit. -/
def room (queue : Fifo) : Nat :=
  queue.capacity - queue.held.length

def append (queue : Fifo) (bytes : List UInt8) : Fifo :=
  { queue with held := queue.held ++ bytes }

def drop (queue : Fifo) (count : Nat) : Fifo :=
  { queue with held := queue.held.drop count }

/-- Adds a range of `bytes`, or nothing. The range is looked at before the room is, and an empty
range needs no room. -/
def pushRange (queue : Fifo) (bytes : List UInt8) (offset length : Nat) :
    Except Fault ByteRing.Removed × Fifo :=
  if offset ≠ 0 ∧ bytes.length ≤ offset then (.error (.badArgument .offsetOutOfRange), queue)
  else if bytes.length < offset + length then (.error (.badArgument .endOutOfRange), queue)
  else if length = 0 then (.ok .nothing, queue)
  else if queue.room < length then (.error (.tooSmall length queue.room), queue)
  else (.ok .nothing, queue.append ((bytes.drop offset).take length))

/-- Removes the oldest `count` bytes and answers with `handed`, or refuses. -/
def remove (queue : Fifo) (count : Nat) (handed : ByteRing.Removed) :
    Except Fault ByteRing.Removed × Fifo :=
  if queue.capacity < count then (.error (.badArgument .countAboveCapacity), queue)
  else if queue.held.length < count then (.error (.tooSmall count queue.held.length), queue)
  else (.ok handed, queue.drop count)

def update (queue : Fifo) : ByteRing.Update → Except Fault ByteRing.Removed × Fifo
  | .clear => (.ok .nothing, { queue with held := [] })
  | .push byte =>
    if queue.held.length = queue.capacity then (.error .full, queue)
    else (.ok .nothing, queue.append [byte])
  | .pushSlice bytes => queue.pushRange bytes 0 bytes.length
  | .pushRange bytes offset length => queue.pushRange bytes offset length
  | .pop =>
    match queue.held with
    | [] => (.error .empty, queue)
    | byte :: _ => (.ok (.byte byte), queue.drop 1)
  | .take count => queue.remove count (.bytes (queue.held.take count))
  | .discard count => queue.remove count .nothing

def updates (queue : Fifo) : List ByteRing.Update → List (Except Fault ByteRing.Removed) × Fifo
  | [] => ([], queue)
  | change :: changes =>
    let (outcome, queue) := queue.update change
    let (outcomes, queue) := queue.updates changes
    (outcome :: outcomes, queue)

def Bounded (queue : Fifo) : Prop :=
  queue.held.length ≤ queue.capacity

end Fifo

end CyclicQueue
