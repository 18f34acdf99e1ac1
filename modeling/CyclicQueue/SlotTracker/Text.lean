import CyclicQueue.SlotTracker.Basic
import CyclicQueue.Text.Layout

/-!
# Trackers as text

A tracker is shown with both cursors, its length and its options.
-/

namespace CyclicQueue.SlotTracker

def flagText (value : Bool) : String :=
  if value then "true" else "false"

def Options.tree (options : Options) : Text.Tree :=
  .record "CircularIndexOptions" [("reset_on_zero", .atom (flagText options.resetOnZero))]

def tree (tracker : SlotTracker) : Text.Tree :=
  .record "CircularIndex"
    [("capacity", .number tracker.capacity), ("first", .number tracker.first),
      ("next", .number tracker.next), ("len", .number tracker.len),
      ("options", tracker.options.tree)]

end CyclicQueue.SlotTracker
