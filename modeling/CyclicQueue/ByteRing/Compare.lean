import CyclicQueue.ByteRing.Walk

/-!
# Equality and hashing of rings

Two rings are equal where they hold the same bytes in the same order, whatever their capacities
and cursors. The contents of two rings go round the ends of their storages at different places, so
equality compares three stretches between those places. Hashing feeds the length and then every
byte, hence equal rings feed the same.
-/

namespace CyclicQueue.ByteRing

/-- Whether `a` and `b`, each in two pieces, are the same bytes. The shorter of the two heads sets
the first cut, the longer one the second. -/
def agree (a b : Runs) : Bool :=
  if a.head.length = b.head.length then a.head == b.head && a.tail == b.tail
  else if a.head.length < b.head.length then
    let front := a.head.length
    let middle := b.head.length - front
    a.head == b.head.take front && a.tail.take middle == b.head.drop front &&
      a.tail.drop middle == b.tail
  else
    let front := b.head.length
    let middle := a.head.length - front
    a.head.take front == b.head && a.head.drop front == b.tail.take middle &&
      a.tail == b.tail.drop middle

def equal (a b : ByteRing) : Bool :=
  a.len == b.len && agree a.slices b.slices

instance : BEq ByteRing where
  beq := equal

inductive HashFeed where
  | word (value : Nat)
  | byte (value : UInt8)
  deriving DecidableEq, Repr

/-- What a ring feeds to a hash state, in order. -/
def hashFeeds (ring : ByteRing) : List HashFeed :=
  .word ring.len :: ring.walk.collect.map .byte

end CyclicQueue.ByteRing
