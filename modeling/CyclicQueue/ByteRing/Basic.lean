import CyclicQueue.Cursor
import CyclicQueue.Memory

/-!
# A bounded queue of bytes in a cyclic storage

A ring keeps its bytes in a storage that never grows and is one slot longer than its capacity. A
read cursor names the slot of the oldest byte, a write cursor the slot of the next one, and both go
round the storage. `Valid` says how the two cursors and the length fit together, and `toList` is
what the ring holds, oldest byte first: at most two contiguous runs of the storage.

A request that changes the ring answers with the outcome and the ring afterwards, also where it
fails.
-/

namespace CyclicQueue

/-- A queue of bytes in a cyclic storage. -/
structure ByteRing where
  storage : Array UInt8
  /-- The slot of the oldest byte. -/
  readPos : Nat
  /-- The slot the next byte goes to. -/
  writePos : Nat
  /-- The number of bytes held. -/
  len : Nat
  deriving Repr

/-- A stretch of the contents as two contiguous pieces of the storage, in order. -/
structure Runs where
  head : List UInt8
  tail : List UInt8
  deriving DecidableEq, Repr

def Runs.bytes (runs : Runs) : List UInt8 :=
  runs.head ++ runs.tail

namespace ByteRing

/-! ## Size and contents -/

/-- The most bytes the ring can hold. One slot of the storage stays spare. -/
def capacity (ring : ByteRing) : Nat :=
  ring.storage.size - 1

/-- The number of bytes that still fit. -/
def free (ring : ByteRing) : Nat :=
  ring.capacity - ring.len

def hasRoom (ring : ByteRing) (count : Nat) : Bool :=
  count ≤ ring.free

def isEmpty (ring : ByteRing) : Bool :=
  ring.len == 0

def isFull (ring : ByteRing) : Bool :=
  ring.len == ring.capacity

theorem isEmpty_eq_false_iff {ring : ByteRing} : ring.isEmpty = false ↔ ring.len ≠ 0 :=
  beq_eq_false_iff_ne

theorem isFull_iff {ring : ByteRing} : ring.isFull = true ↔ ring.len = ring.capacity :=
  beq_iff_eq

theorem isFull_eq_false_iff {ring : ByteRing} : ring.isFull = false ↔ ring.len ≠ ring.capacity :=
  beq_eq_false_iff_ne

/-- How cursors, length and storage fit together. The storage has a spare slot, so the cursors
meet only in an empty ring. -/
structure Valid (ring : ByteRing) : Prop where
  two_le_size : 2 ≤ ring.storage.size
  readPos_lt : ring.readPos < ring.storage.size
  len_le : ring.len ≤ ring.capacity
  writePos_eq : ring.writePos = Cursor.forward ring.storage.size ring.readPos ring.len

/-- Tests that both cursors name slots, that the length fits, and that the write cursor is
`len` slots after the read cursor. -/
def isConsistent (ring : ByteRing) : Bool :=
  ring.readPos < ring.storage.size && ring.writePos < ring.storage.size &&
    ring.len ≤ ring.capacity &&
    Cursor.forward ring.storage.size ring.readPos ring.len == ring.writePos

theorem Valid.isConsistent {ring : ByteRing} (h : ring.Valid) : ring.isConsistent = true := by
  have hw := Cursor.forward_lt (by have := h.two_le_size; omega : 0 < ring.storage.size)
    ring.readPos ring.len
  simp [ByteRing.isConsistent, h.readPos_lt, h.len_le, h.writePos_eq, hw]

/-- The slot of the byte `index` places after the oldest one. -/
def slot (ring : ByteRing) (index : Nat) : Nat :=
  Cursor.forward ring.storage.size ring.readPos index

/-- The `count` bytes of the storage from slot `start` on. -/
def stretch (ring : ByteRing) (start count : Nat) : List UInt8 :=
  (ring.storage.extract start (start + count)).toList

/-- The contents from `offset` on, `length` bytes, as the piece up to the end of the storage and
the piece that goes on at slot 0. -/
def runs (ring : ByteRing) (offset length : Nat) : Runs :=
  let start := ring.slot offset
  let room := ring.storage.size - start
  if length ≤ room then ⟨ring.stretch start length, []⟩
  else ⟨ring.stretch start room, ring.stretch 0 (length - room)⟩

/-- The whole contents as two pieces. The second is empty unless the contents go round the end of
the storage. -/
def slices (ring : ByteRing) : Runs :=
  ring.runs 0 ring.len

/-- The contents from `offset` on, `length` bytes. -/
def range (ring : ByteRing) (offset length : Nat) : List UInt8 :=
  (ring.runs offset length).bytes

/-- The contents, oldest byte first. -/
def toList (ring : ByteRing) : List UInt8 :=
  ring.range 0 ring.len

/-- The byte `index` places after the oldest one. -/
def get (ring : ByteRing) (index : Nat) : Except Fault UInt8 :=
  if ring.capacity ≤ index then .error (.badArgument .indexAboveCapacity)
  else if ring.len ≤ index then .error (.tooSmall (index + 1) ring.len)
  else .ok (ring.storage.getD (ring.slot index) 0)

/-! ## Adding and removing -/

/-- Writes `bytes` into the slots from `start` on. -/
def writeRun (storage : Array UInt8) (start : Nat) : List UInt8 → Array UInt8
  | [] => storage
  | byte :: bytes => writeRun (storage.setIfInBounds start byte) (start + 1) bytes

@[simp] theorem size_writeRun (storage : Array UInt8) (start : Nat) (bytes : List UInt8) :
    (writeRun storage start bytes).size = storage.size := by
  induction bytes generalizing storage start with
  | nil => rfl
  | cons byte bytes ih => simp [writeRun, ih]

/-- Writes `bytes` from the write cursor on: up to the end of the storage, and what is left from
slot 0 on. -/
def append (ring : ByteRing) (bytes : List UInt8) : ByteRing :=
  let room := min bytes.length (ring.storage.size - ring.writePos)
  { storage := writeRun (writeRun ring.storage ring.writePos (bytes.take room)) 0 (bytes.drop room)
    readPos := ring.readPos
    writePos := Cursor.forward ring.storage.size ring.writePos bytes.length
    len := ring.len + bytes.length }

def push (ring : ByteRing) (byte : UInt8) : Except Fault Unit × ByteRing :=
  if ring.isFull then (.error .full, ring)
  else
    (.ok (),
      { storage := ring.storage.setIfInBounds ring.writePos byte
        readPos := ring.readPos
        writePos := Cursor.forward ring.storage.size ring.writePos 1
        len := ring.len + 1 })

/-- Adds `length` bytes of `bytes` from `offset` on, or none. An empty range never lacks room. -/
def pushRange (ring : ByteRing) (bytes : List UInt8) (offset length : Nat) :
    Except Fault Unit × ByteRing :=
  match checkRange bytes.length offset length with
  | .error fault => (.error fault, ring)
  | .ok () =>
    if length = 0 then (.ok (), ring)
    else if ring.free < length then (.error (.tooSmall length ring.free), ring)
    else (.ok (), ring.append ((bytes.drop offset).take length))

/-- Adds all of `bytes`, or none. -/
def pushSlice (ring : ByteRing) (bytes : List UInt8) : Except Fault Unit × ByteRing :=
  ring.pushRange bytes 0 bytes.length

/-- Forgets all bytes and takes both cursors to slot 0. The storage keeps its bytes. -/
def clear (ring : ByteRing) : ByteRing :=
  { ring with readPos := 0, writePos := 0, len := 0 }

/-- Moves the read cursor past `count` bytes. -/
def advance (ring : ByteRing) (count : Nat) : ByteRing :=
  { ring with
    readPos := Cursor.forward ring.storage.size ring.readPos count
    len := ring.len - count }

def pop (ring : ByteRing) : Except Fault UInt8 × ByteRing :=
  if ring.isEmpty then (.error .empty, ring)
  else (.ok (ring.storage.getD ring.readPos 0), ring.advance 1)

/-- Accepts a number of bytes to remove. -/
def checkCount (ring : ByteRing) (count : Nat) : Except Fault Unit :=
  if ring.capacity < count then .error (.badArgument .countAboveCapacity)
  else if ring.len < count then .error (.tooSmall count ring.len)
  else .ok ()

/-- Removes the oldest `count` bytes and hands them over. -/
def take (ring : ByteRing) (count : Nat) : Except Fault (List UInt8) × ByteRing :=
  match ring.checkCount count with
  | .error fault => (.error fault, ring)
  | .ok () => (.ok (ring.range 0 count), ring.advance count)

/-- Removes the oldest `count` bytes without reading them. -/
def discard (ring : ByteRing) (count : Nat) : Except Fault Unit × ByteRing :=
  match ring.checkCount count with
  | .error fault => (.error fault, ring)
  | .ok () => (.ok (), ring.advance count)

/-! ## Building -/

def withCapacity (memory : Memory) (capacity : Nat) : Except Fault ByteRing :=
  if capacity = 0 then .error (.badArgument .capacityNotPositive)
  else
    match memory.reserve (capacity + 1) with
    | .error fault => .error fault
    | .ok () => .ok ⟨Array.replicate (capacity + 1) 0, 0, 0, 0⟩

/-- A ring whose contents, `head` and then `tail`, start at slot 0 of a storage of zeros. -/
def filled (capacity : Nat) (head tail : List UInt8) : ByteRing :=
  { storage :=
      writeRun (writeRun (Array.replicate (capacity + 1) 0) 0 head) head.length tail
    readPos := 0
    writePos := head.length + tail.length
    len := head.length + tail.length }

/-- A full ring that holds `bytes`. Its capacity is 1 where there are none. -/
def ofBytes (bytes : List UInt8) : ByteRing :=
  filled (max bytes.length 1) bytes []

/-- A ring of the given capacity that holds `length` bytes of `bytes` from `offset` on. -/
def ofRangeWithCapacity (memory : Memory) (bytes : List UInt8) (offset length capacity : Nat) :
    Except Fault ByteRing := do
  checkRange bytes.length offset length
  if capacity < length then throw (.badArgument .capacityBelowLength)
  let ring ← withCapacity memory capacity
  match ring.pushRange bytes offset length with
  | (.error fault, _) => throw fault
  | (.ok (), ring) => return ring

def ofBytesWithCapacity (memory : Memory) (bytes : List UInt8) (capacity : Nat) :
    Except Fault ByteRing :=
  ofRangeWithCapacity memory bytes 0 bytes.length capacity

/-- A ring that holds `length` bytes of `bytes` from `offset` on and is full unless there are
none. -/
def ofRange (memory : Memory) (bytes : List UInt8) (offset length : Nat) :
    Except Fault ByteRing :=
  ofRangeWithCapacity memory bytes offset length (max length 1)

end ByteRing

end CyclicQueue
