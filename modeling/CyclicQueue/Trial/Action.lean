import CyclicQueue.Text.Layout

/-!
# Trials of a ring

A trial is a capacity and a list of actions to be carried out on a ring and on a plain list at
once. All numbers in it are bytes, so any bytes can be read as a trial.
-/

namespace CyclicQueue.Trial

inductive Action where
  | push (byte : UInt8)
  | pushRange (bytes : List UInt8) (offset length : UInt8)
  | pop
  | take (count : UInt8)
  | discard (count : UInt8)
  | get (index : UInt8)
  | find (needle : List UInt8) (start : UInt8)
  | occurrences (needle : List UInt8)
  | startsWith (bytes : List UInt8)
  | endsWith (bytes : List UInt8)
  | copyTo (offset length targetSize targetOffset : UInt8)
  | copyRange (offset length extra : UInt8)
  | clear
  deriving DecidableEq, Repr

structure Plan where
  capacity : UInt8
  actions : List Action
  deriving DecidableEq, Repr

/-! ## Text -/

def byteTree (byte : UInt8) : Text.Tree :=
  .number byte.toNat

def bytesTree (bytes : List UInt8) : Text.Tree :=
  .list (bytes.map byteTree)

def Action.tree : Action → Text.Tree
  | .push byte => .call "Push" [byteTree byte]
  | .pushRange bytes offset length =>
    .record "PushRange"
      [("bytes", bytesTree bytes), ("offset", byteTree offset), ("length", byteTree length)]
  | .pop => .atom "Pop"
  | .take count => .call "Take" [byteTree count]
  | .discard count => .call "Discard" [byteTree count]
  | .get index => .call "Get" [byteTree index]
  | .find needle start =>
    .record "Find" [("needle", bytesTree needle), ("from", byteTree start)]
  | .occurrences needle => .call "Occurrences" [bytesTree needle]
  | .startsWith bytes => .call "StartsWith" [bytesTree bytes]
  | .endsWith bytes => .call "EndsWith" [bytesTree bytes]
  | .copyTo offset length targetSize targetOffset =>
    .record "CopyTo"
      [("offset", byteTree offset), ("length", byteTree length),
        ("target_len", byteTree targetSize), ("target_offset", byteTree targetOffset)]
  | .copyRange offset length extra =>
    .record "CopyRange"
      [("offset", byteTree offset), ("length", byteTree length), ("extra", byteTree extra)]
  | .clear => .atom "Clear"

def Plan.tree (plan : Plan) : Text.Tree :=
  .record "Input"
    [("capacity", byteTree plan.capacity), ("ops", .list (plan.actions.map Action.tree))]

end CyclicQueue.Trial
