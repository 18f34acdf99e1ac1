import CyclicQueue.ByteRing.Tally
import CyclicQueue.SlotTracker.Basic

/-!
# A ring and a tracker of its slots

A ring names its own occupied slots, and a tracker moved along with it is to name the same ones. It
is moved by one slot for every single byte: once for a byte that goes in and once for one that is
removed.
-/

namespace CyclicQueue.ByteRing

/-- The tracker of the slots that a ring occupies. -/
def tracker (ring : ByteRing) : SlotTracker where
  capacity := ring.storage.size
  first := ring.readPos
  next := ring.writePos
  len := ring.len
  options := {}

/-- The moves that go with a change: one for every byte that it removes or takes in, and none where
it is refused. -/
def Update.moves (change : Update) : Except Fault Removed → List SlotTracker.Move
  | .error _ => []
  | .ok _ =>
    if change = .clear then [.reset]
    else List.replicate change.removes .removeFirst ++ List.replicate change.adds .addLast

/-- The moves that go with a run of changes. -/
def mirror (ring : ByteRing) : List Update → List SlotTracker.Move
  | [] => []
  | change :: changes =>
    let (outcome, left) := ring.update change
    change.moves outcome ++ left.mirror changes

end CyclicQueue.ByteRing
