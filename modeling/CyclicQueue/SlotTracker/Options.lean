/-!
# Options of a slot tracker

There is one choice: whether a tracker that becomes empty starts again at slot 0.
-/

namespace CyclicQueue.SlotTracker

structure Options where
  /-- Whether the removal of the last element takes both cursors to slot 0. -/
  resetOnZero : Bool := false
  deriving DecidableEq, Repr

end CyclicQueue.SlotTracker
