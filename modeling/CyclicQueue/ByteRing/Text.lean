import CyclicQueue.ByteRing.Walk
import CyclicQueue.Text.Escape
import CyclicQueue.Text.Hex
import CyclicQueue.Text.Latin1
import CyclicQueue.Text.Layout

/-!
# Rings and text

A ring is made from a text with one byte for each character and shown as a text with one character
for each byte. It is also shown as hexadecimal digits, and as a tree with its capacity, its length
and its contents between quotes.
-/

namespace CyclicQueue.ByteRing

/-- A full ring with one byte for each character of `text`. -/
def ofLatin1 (text : String) : ByteRing :=
  ofBytes (Text.Latin1.encode text)

/-- A ring of the given capacity with one byte for each character of `text`. -/
def ofLatin1WithCapacity (memory : Memory) (text : String) (capacity : Nat) :
    Except Fault ByteRing :=
  ofBytesWithCapacity memory (Text.Latin1.encode text) capacity

def display (ring : ByteRing) : String :=
  Text.Latin1.decode ring.walk.collect

/-- The hexadecimal digits of a stretch of the contents, one piece after the other. -/
def hexOf (ring : ByteRing) (offset length : Nat) : String :=
  let runs := ring.runs offset length
  Text.Hex.append (Text.Hex.append "" runs.head) runs.tail

def hex (ring : ByteRing) : String :=
  ring.hexOf 0 ring.len

def hexRange (ring : ByteRing) (offset length : Nat) : Except Fault String :=
  match checkRange ring.len offset length with
  | .error fault => .error fault
  | .ok () => .ok (ring.hexOf offset length)

/-- A ring as a tree to be shown. How bytes look between quotes is up to `quote`. -/
def treeWith (quote : List UInt8 → String) (ring : ByteRing) : Text.Tree :=
  .record "RingBuffer"
    [("capacity", .number ring.capacity), ("len", .number ring.len),
      ("data", .atom (quote ring.toList))]

def tree (ring : ByteRing) : Text.Tree :=
  ring.treeWith Text.quotedBytes

/-- A walk as a tree to be shown: the bytes to come in either piece. -/
def Walk.tree (walk : Walk) : Text.Tree :=
  .record "Iter" [("head", piece walk.head), ("tail", piece walk.tail)]
where
  piece (bytes : List UInt8) : Text.Tree :=
    .call "Iter" [.list (bytes.map fun byte => .number byte.toNat)]

end CyclicQueue.ByteRing
