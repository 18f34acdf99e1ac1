import CyclicQueue.ByteRing.Compare
import CyclicQueue.ByteRing.Json
import CyclicQueue.ByteRing.Search
import CyclicQueue.ByteRing.Stream
import CyclicQueue.ByteRing.Text
import CyclicQueue.ByteRing.Update

/-!
# Requests to a ring as data

Every request that one ring answers is a `Call`. `answer` carries it out and gives the answer
together with the ring afterwards.
-/

namespace CyclicQueue.ByteRing

/-- A request to one ring. -/
inductive Call where
  | update (change : Update)
  -- looking at the contents
  | hasRoom (count : Nat)
  | get (index : Nat)
  | toList
  | exportRange (offset length : Nat)
  | exportReserving (offset length capacity : Nat)
  | copyTo (offset length : Nat) (target : List UInt8) (targetOffset : Nat)
  | startsWith (bytes : List UInt8)
  | endsWith (bytes : List UInt8)
  | equalsBytes (bytes : List UInt8)
  | find (needle : List UInt8)
  | findFrom (needle : List UInt8) (start : Nat)
  | occurrences (needle : List UInt8)
  | count (byte : UInt8)
  | collect
  | collectBack
  | walk (sides : List End)
  -- rendering the contents
  | hex
  | hexRange (offset length : Nat)
  | display
  | show (expanded : Bool)
  | toJson
  | hash
  -- the ring as a stream
  | write (bytes : List UInt8)
  | writeAll (bytes : List UInt8)
  | writeVectored (chunks : List (List UInt8))
  | flush
  | read (buffer : List UInt8)
  | readExact (buffer : List UInt8)
  | readVectored (buffers : List (List UInt8))
  | readToEnd
  | readToText
  deriving DecidableEq, Repr

/-- The value of a call that succeeds. -/
inductive Value where
  | done
  | flag (value : Bool)
  | number (value : Nat)
  | position (value : Option Nat)
  | byte (value : UInt8)
  | bytes (value : List UInt8)
  | text (value : String)
  | feeds (value : List HashFeed)
  /-- The number of bytes to come at first, what each step met, and the walk after them. -/
  | walked (size : Nat) (met : List (Option UInt8 × Nat)) (left : Walk)
  deriving DecidableEq, Repr

def Removed.value : Removed → Value
  | .nothing => .done
  | .byte removed => .byte removed
  | .bytes removed => .bytes removed

/-- What a call gives: its outcome and the caller's buffers afterwards. -/
structure Answer where
  outcome : Except StreamFault Value
  buffers : List (List UInt8)
  deriving Repr

namespace Answer

def plain (outcome : Except StreamFault Value) : Answer :=
  ⟨outcome, []⟩

def value (value : Value) : Answer :=
  plain (.ok value)

end Answer

/-- The outcome of a request that may be refused, as the outcome of a call. -/
def outcomeOf {α : Type} (make : α → Value) : Except Fault α → Except StreamFault Value
  | .ok result => .ok (make result)
  | .error fault => .error (.refused fault)

/-- The outcome of a loop over a stream, as the outcome of a call. -/
def streamOutcome {α : Type} (make : α → Value) : Except StreamFault α → Except StreamFault Value
  | .ok result => .ok (make result)
  | .error fault => .error fault

def answer (memory : Memory) (ring : ByteRing) : Call → Answer × ByteRing
  | .update change =>
    let (outcome, ring) := ring.update change
    (.plain (outcomeOf Removed.value outcome), ring)
  | .hasRoom count => (.value (.flag (ring.hasRoom count)), ring)
  | .get index => (.plain (outcomeOf .byte (ring.get index)), ring)
  | .toList => (.value (.bytes ring.toList), ring)
  | .exportRange offset length =>
    (.plain (outcomeOf .bytes (ring.exportRange memory offset length)), ring)
  | .exportReserving offset length capacity =>
    (.plain (outcomeOf .bytes (ring.exportReserving memory offset length capacity)), ring)
  | .copyTo offset length target targetOffset =>
    let (outcome, target) := ring.copyTo offset length target targetOffset
    (⟨outcomeOf (fun _ => .done) outcome, [target]⟩, ring)
  | .startsWith bytes => (.value (.flag (ring.startsWith bytes)), ring)
  | .endsWith bytes => (.value (.flag (ring.endsWith bytes)), ring)
  | .equalsBytes bytes => (.value (.flag (ring.equalsBytes bytes)), ring)
  | .find needle => (.value (.position (ring.find needle)), ring)
  | .findFrom needle start =>
    (.plain (outcomeOf .position (ring.findFrom needle start)), ring)
  | .occurrences needle => (.value (.position (ring.occurrences needle)), ring)
  | .count byte => (.value (.number (ring.count byte)), ring)
  | .collect => (.value (.bytes ring.walk.collect), ring)
  | .collectBack => (.value (.bytes ring.walk.collectBack), ring)
  | .walk sides =>
    let (met, left) := ring.walk.follow sides
    (.value (.walked ring.walk.size met left), ring)
  | .hex => (.value (.text ring.hex), ring)
  | .hexRange offset length => (.plain (outcomeOf .text (ring.hexRange offset length)), ring)
  | .display => (.value (.text ring.display), ring)
  | .show expanded =>
    (.value (.text (if expanded then ring.tree.expanded else ring.tree.line)), ring)
  | .toJson => (.value (.text ring.toJson), ring)
  | .hash => (.value (.feeds ring.hashFeeds), ring)
  | .write bytes =>
    let (outcome, ring) := ring.write bytes
    (.plain (outcomeOf .number outcome), ring)
  | .writeAll bytes =>
    let (outcome, ring) := ring.writeAll bytes
    (.plain (streamOutcome (fun _ => .done) outcome), ring)
  | .writeVectored chunks =>
    let (outcome, ring) := ring.writeVectored chunks
    (.plain (outcomeOf .number outcome), ring)
  | .flush => (.value .done, ring)
  | .read buffer =>
    let reading := ring.read buffer
    (⟨outcomeOf .number reading.outcome, [reading.buffer]⟩, reading.ring)
  | .readExact buffer =>
    let reading := ring.readExact buffer
    (⟨streamOutcome (fun _ => .done) reading.outcome, [reading.buffer]⟩, reading.ring)
  | .readVectored buffers =>
    let (outcome, buffers, ring) := ring.readVectored buffers
    (⟨outcomeOf .number outcome, buffers⟩, ring)
  | .readToEnd =>
    let (outcome, ring) := ring.readToEnd
    (.plain (streamOutcome .bytes outcome), ring)
  | .readToText =>
    let (outcome, ring) := ring.readToText
    (.plain (streamOutcome .text outcome), ring)

end CyclicQueue.ByteRing
