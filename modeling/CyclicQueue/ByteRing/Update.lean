import CyclicQueue.ByteRing.Basic

/-!
# Changes of a ring as data

The seven requests that change what a ring holds, and runs of them.
-/

namespace CyclicQueue.ByteRing

inductive Update where
  | clear
  | push (byte : UInt8)
  | pushSlice (bytes : List UInt8)
  | pushRange (bytes : List UInt8) (offset length : Nat)
  | pop
  | take (count : Nat)
  | discard (count : Nat)
  deriving DecidableEq, Repr

/-- What a change hands over. -/
inductive Removed where
  | nothing
  | byte (value : UInt8)
  | bytes (value : List UInt8)
  deriving DecidableEq, Repr

/-- A result told as what a change hands over. -/
def handing {α : Type} (make : α → Removed) (result : Except Fault α × ByteRing) :
    Except Fault Removed × ByteRing :=
  (result.1.map make, result.2)

def update (ring : ByteRing) : Update → Except Fault Removed × ByteRing
  | .clear => (.ok .nothing, ring.clear)
  | .push byte => handing (fun _ => .nothing) (ring.push byte)
  | .pushSlice bytes => handing (fun _ => .nothing) (ring.pushSlice bytes)
  | .pushRange bytes offset length =>
    handing (fun _ => .nothing) (ring.pushRange bytes offset length)
  | .pop => handing .byte ring.pop
  | .take count => handing .bytes (ring.take count)
  | .discard count => handing (fun _ => .nothing) (ring.discard count)

def updates (ring : ByteRing) : List Update → List (Except Fault Removed) × ByteRing
  | [] => ([], ring)
  | change :: changes =>
    let (outcome, ring) := ring.update change
    let (outcomes, ring) := ring.updates changes
    (outcome :: outcomes, ring)

end CyclicQueue.ByteRing
