import CyclicQueue.ByteRing.Export
import CyclicQueue.Machine

/-!
# Rings on the machine, step by step

The requests to a ring as chains of machine steps: every sum, difference, index, range and copy is
carried out by the machine and stops the request where the machine cannot carry it out, and what is
stated to hold at a place is tested there. A result that is refused is no trap.
-/

namespace CyclicQueue.ByteRing.Guarded

open Machine

/-! ## Size and contents -/

def capacity (ring : ByteRing) : Steps Nat :=
  sub ring.storage.size 1

def free (ring : ByteRing) : Steps Nat := do
  sub (← capacity ring) ring.len

def hasRoom (ring : ByteRing) (count : Nat) : Steps Bool := do
  return count ≤ (← free ring)

def isFull (ring : ByteRing) : Steps Bool := do
  return ring.len == (← capacity ring)

def runs (ring : ByteRing) (offset length : Nat) : Steps Runs := do
  require ((← add offset length) ≤ ring.len)
  let start ← forward ring.storage.size ring.readPos offset
  let room ← sub ring.storage.size start
  if length ≤ room then
    let head ← view ring.storage start (← add start length)
    return ⟨head, []⟩
  else
    let head ← view ring.storage start ring.storage.size
    let tail ← view ring.storage 0 (← sub length room)
    return ⟨head, tail⟩

def slices (ring : ByteRing) : Steps Runs :=
  runs ring 0 ring.len

def toList (ring : ByteRing) : Steps (List UInt8) := do
  return (← slices ring).bytes

def get (ring : ByteRing) (index : Nat) : Steps (Except Fault UInt8) := do
  if (← capacity ring) ≤ index then
    return .error (.badArgument .indexAboveCapacity)
  else if ring.len ≤ index then
    return .error (.tooSmall (← add index 1) ring.len)
  else
    return .ok (← load ring.storage (← forward ring.storage.size ring.readPos index))

/-! ## Adding and removing -/

/-- The end of the range is summed up only if the sum is a word. -/
def checkRange (size offset length : Nat) : Except Fault Unit :=
  if offset ≠ 0 ∧ size ≤ offset then .error (.badArgument .offsetOutOfRange)
  else
    match sum? offset length with
    | none => .error (.badArgument .endOutOfRange)
    | some stop => if stop ≤ size then .ok () else .error (.badArgument .endOutOfRange)

def push (ring : ByteRing) (byte : UInt8) : Steps (Except Fault Unit × ByteRing) := do
  if ← isFull ring then
    return (.error .full, ring)
  else
    let storage ← store ring.storage ring.writePos byte
    let writePos ← forward ring.storage.size ring.writePos 1
    return (.ok (), ⟨storage, ring.readPos, writePos, ← add ring.len 1⟩)

/-- Copies `bytes` onto the slots from the write cursor on. -/
def append (ring : ByteRing) (bytes : List UInt8) : Steps ByteRing := do
  let room := min bytes.length (← sub ring.storage.size ring.writePos)
  let storage ← fill ring.storage ring.writePos (← add ring.writePos room) (← slice bytes 0 room)
  let storage ← fill storage 0 (← sub bytes.length room) (← slice bytes room bytes.length)
  let writePos ← forward ring.storage.size ring.writePos bytes.length
  return ⟨storage, ring.readPos, writePos, ← add ring.len bytes.length⟩

def pushRange (ring : ByteRing) (bytes : List UInt8) (offset length : Nat) :
    Steps (Except Fault Unit × ByteRing) := do
  match checkRange bytes.length offset length with
  | .error fault => return (.error fault, ring)
  | .ok () =>
    if length = 0 then
      return (.ok (), ring)
    else if (← free ring) < length then
      return (.error (.tooSmall length (← free ring)), ring)
    else
      return (.ok (), ← append ring (← slice bytes offset (← add offset length)))

def pushSlice (ring : ByteRing) (bytes : List UInt8) : Steps (Except Fault Unit × ByteRing) :=
  pushRange ring bytes 0 bytes.length

def pop (ring : ByteRing) : Steps (Except Fault UInt8 × ByteRing) := do
  if ring.isEmpty then
    return (.error .empty, ring)
  else
    let byte ← load ring.storage ring.readPos
    let readPos ← forward ring.storage.size ring.readPos 1
    return (.ok byte, { ring with readPos, len := ← sub ring.len 1 })

def checkCount (ring : ByteRing) (count : Nat) : Steps (Except Fault Unit) := do
  if (← capacity ring) < count then
    return .error (.badArgument .countAboveCapacity)
  else if ring.len < count then
    return .error (.tooSmall count ring.len)
  else
    return .ok ()

def advance (ring : ByteRing) (count : Nat) : Steps ByteRing := do
  require (count ≤ ring.len)
  let readPos ← forward ring.storage.size ring.readPos count
  return { ring with readPos, len := ← sub ring.len count }

def take (ring : ByteRing) (count : Nat) : Steps (Except Fault (List UInt8) × ByteRing) := do
  match ← checkCount ring count with
  | .error fault => return (.error fault, ring)
  | .ok () =>
    let runs ← runs ring 0 count
    return (.ok runs.bytes, ← advance ring count)

def discard (ring : ByteRing) (count : Nat) : Steps (Except Fault Unit × ByteRing) := do
  match ← checkCount ring count with
  | .error fault => return (.error fault, ring)
  | .ok () => return (.ok (), ← advance ring count)

/-! ## Building and handing out ranges -/

/-- The size of the storage is summed up only if the sum is a word. -/
def withCapacity (memory : Memory) (capacity : Nat) : Except Fault ByteRing :=
  if capacity = 0 then .error (.badArgument .capacityNotPositive)
  else
    match sum? capacity 1 with
    | none => .error (.badArgument .capacityTooLarge)
    | some size =>
      match memory.reserve size with
      | .error fault => .error fault
      | .ok () => .ok ⟨Array.replicate size 0, 0, 0, 0⟩

def filled (capacity : Nat) (head tail : List UInt8) : Steps ByteRing := do
  let len ← add head.length tail.length
  require (1 ≤ capacity ∧ len ≤ capacity)
  let size ← add capacity 1
  let storage ← fill (Array.replicate size 0) 0 head.length head
  let storage ← fill storage head.length len tail
  return ⟨storage, 0, len, len⟩

def ofBytes (bytes : List UInt8) : Steps ByteRing :=
  filled (max bytes.length 1) bytes []

def ofRangeWithCapacity (memory : Memory) (bytes : List UInt8) (offset length capacity : Nat) :
    Steps (Except Fault ByteRing) :=
  match checkRange bytes.length offset length with
  | .error fault => return .error fault
  | .ok () =>
    if capacity < length then return .error (.badArgument .capacityBelowLength)
    else
      match withCapacity memory capacity with
      | .error fault => return .error fault
      | .ok ring => do
        match ← pushRange ring bytes offset length with
        | (.error fault, _) => return .error fault
        | (.ok (), ring) => return .ok ring

def ofBytesWithCapacity (memory : Memory) (bytes : List UInt8) (capacity : Nat) :
    Steps (Except Fault ByteRing) :=
  ofRangeWithCapacity memory bytes 0 bytes.length capacity

def ofRange (memory : Memory) (bytes : List UInt8) (offset length : Nat) :
    Steps (Except Fault ByteRing) :=
  ofRangeWithCapacity memory bytes offset length (max length 1)

def exportReserving (memory : Memory) (ring : ByteRing) (offset length capacity : Nat) :
    Steps (Except Fault (List UInt8)) :=
  match checkRange ring.len offset length with
  | .error fault => return .error fault
  | .ok () =>
    if capacity < length then return .error (.badArgument .capacityBelowLength)
    else do
      let runs ← runs ring offset length
      match memory.reserve capacity with
      | .error fault => return .error fault
      | .ok () => return .ok runs.bytes

def exportRange (memory : Memory) (ring : ByteRing) (offset length : Nat) :
    Steps (Except Fault (List UInt8)) :=
  exportReserving memory ring offset length length

def copyTo (ring : ByteRing) (offset length : Nat) (target : List UInt8) (targetOffset : Nat) :
    Steps (Except Fault Unit × List UInt8) :=
  match checkRange ring.len offset length with
  | .error fault => return (.error fault, target)
  | .ok () =>
    match checkRange target.length targetOffset length with
    | .error fault => return (.error fault, target)
    | .ok () => do
      let runs ← runs ring offset length
      let split ← add targetOffset runs.head.length
      let started ← copyOver target targetOffset split runs.head
      if runs.tail.isEmpty then
        return (.ok (), started)
      else
        let stop ← add targetOffset length
        return (.ok (), ← copyOver started split stop runs.tail)

def realign (ring : ByteRing) : Steps ByteRing := do
  let runs ← slices ring
  filled (← capacity ring) runs.head runs.tail

def copyRangeWithCapacity (memory : Memory) (ring : ByteRing) (offset length capacity : Nat) :
    Steps (Except Fault ByteRing) :=
  match checkRange ring.len offset length with
  | .error fault => return .error fault
  | .ok () =>
    if capacity < length then return .error (.badArgument .capacityBelowLength)
    else
      match withCapacity memory capacity with
      | .error fault => return .error fault
      | .ok copy => do
        let runs ← runs ring offset length
        match ← pushSlice copy runs.head with
        | (.error fault, _) => return .error fault
        | (.ok (), copy) =>
          match ← pushSlice copy runs.tail with
          | (.error fault, _) => return .error fault
          | (.ok (), copy) => return .ok copy

def copyRange (memory : Memory) (ring : ByteRing) (offset length : Nat) :
    Steps (Except Fault ByteRing) :=
  copyRangeWithCapacity memory ring offset length (max length 1)

end CyclicQueue.ByteRing.Guarded
