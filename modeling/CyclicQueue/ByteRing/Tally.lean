import CyclicQueue.ByteRing.Transfer
import CyclicQueue.ByteRing.Update

/-!
# Counting what goes in and out

A tally keeps two numbers beside a ring: the bytes that it has taken in and the bytes that have been
removed from it. Clearing starts both anew. A request and its answer tell what is counted; no cursor
is looked at.
-/

namespace CyclicQueue.ByteRing

namespace Update

/-- The number of bytes that a change takes in where it goes through. -/
def adds : Update → Nat
  | .push _ => 1
  | .pushSlice bytes => bytes.length
  | .pushRange _ _ length => length
  | .clear | .pop | .take _ | .discard _ => 0

/-- The number of bytes that a change passes where it goes through. A ring that is cleared passes
none of its bytes: it goes back to slot 0. -/
def removes : Update → Nat
  | .pop => 1
  | .take count => count
  | .discard count => count
  | .clear | .push _ | .pushSlice _ | .pushRange _ _ _ => 0

end Update

structure Tally where
  added : Nat
  removed : Nat
  deriving DecidableEq, Repr

namespace Tally

def change (tally : Tally) (change : Update) : Except Fault Removed → Tally
  | .error _ => tally
  | .ok _ =>
    if change = .clear then ⟨0, 0⟩
    else ⟨tally.added + change.adds, tally.removed + change.removes⟩

def transfer (tally : Tally) (step : Transfer) (answer : Transferred) : Tally where
  added := tally.added + (step.accepted answer).length
  removed := tally.removed + (step.delivered answer).length

end Tally

end CyclicQueue.ByteRing
