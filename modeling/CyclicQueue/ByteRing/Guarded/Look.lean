import CyclicQueue.ByteRing.Compare
import CyclicQueue.ByteRing.Guarded.Basic
import CyclicQueue.ByteRing.Json
import CyclicQueue.ByteRing.Text

/-!
# Looking into a ring on the machine, step by step

Searching, comparing, walking and rendering as chains of machine steps. A needle and the pieces of
two rings are split at places that the machine tests, and every sum along a search or a walk is a
word.
-/

namespace CyclicQueue.ByteRing.Guarded

open Machine

/-! ## Needles -/

def matchesAt (ring : ByteRing) (offset : Nat) (needle : List UInt8) : Steps Bool := do
  let runs ← runs ring offset needle.length
  let (front, back) ← splitAt needle runs.head.length
  return runs.head == front && runs.tail == back

def startsWith (ring : ByteRing) (bytes : List UInt8) : Steps Bool :=
  if !bytes.isEmpty && bytes.length ≤ ring.len then matchesAt ring 0 bytes
  else return false

def endsWith (ring : ByteRing) (bytes : List UInt8) : Steps Bool := do
  if !bytes.isEmpty && bytes.length ≤ ring.len then
    matchesAt ring (← sub ring.len bytes.length) bytes
  else
    return false

def equalsBytes (ring : ByteRing) (bytes : List UInt8) : Steps Bool :=
  if bytes.isEmpty && ring.isEmpty then return true
  else startsWith ring bytes

/-- Tries one offset after the other. -/
def firstMatch (ring : ByteRing) (needle : List UInt8) : List Nat → Steps (Option Nat)
  | [] => return none
  | offset :: offsets => do
    if ← matchesAt ring offset needle then
      return some offset
    else
      firstMatch ring needle offsets

def search (ring : ByteRing) (needle : List UInt8) (start : Nat) : Steps (Option Nat) := do
  if needle.isEmpty || ring.len < needle.length then
    return none
  else
    let last ← sub ring.len needle.length
    -- going over the offsets up to the last one sums up nothing
    firstMatch ring needle (List.range' start (last + 1 - start))

def find (ring : ByteRing) (needle : List UInt8) : Steps (Option Nat) :=
  search ring needle 0

def findFrom (ring : ByteRing) (needle : List UInt8) (start : Nat) :
    Steps (Except Fault (Option Nat)) := do
  if ring.len ≤ start then
    return .error (.badArgument .searchStartOutOfRange)
  else
    return .ok (← search ring needle start)

/-- Counts on from `count`. Every match has to take the search further into the ring. -/
def countFrom (ring : ByteRing) (needle : List UInt8) (count start : Nat) : Steps Nat := do
  match ← search ring needle start with
  | none => return count
  | some offset =>
    let count ← add count 1
    let next ← add offset needle.length
    if start < next ∧ next ≤ ring.len then
      countFrom ring needle count next
    else
      throw .stuck
termination_by ring.len - start

def occurrences (ring : ByteRing) (needle : List UInt8) : Steps (Option Nat) := do
  if needle.isEmpty then
    return none
  else
    return some (← countFrom ring needle 0 0)

def count (ring : ByteRing) (byte : UInt8) : Steps Nat := do
  return (← occurrences ring [byte]).getD 0

/-! ## Two rings -/

def agree (a b : Runs) : Steps Bool := do
  if a.head.length = b.head.length then
    return a.head == b.head && a.tail == b.tail
  else if a.head.length < b.head.length then
    let front := a.head.length
    let middle ← sub b.head.length front
    let (bFront, bMiddle) ← splitAt b.head front
    let (aMiddle, aBack) ← splitAt a.tail middle
    return a.head == bFront && aMiddle == bMiddle && aBack == b.tail
  else
    let front := b.head.length
    let middle ← sub a.head.length front
    let (aFront, aMiddle) ← splitAt a.head front
    let (bMiddle, bBack) ← splitAt b.tail middle
    return aFront == b.head && aMiddle == bMiddle && a.tail == bBack

def equal (a b : ByteRing) : Steps Bool := do
  if a.len == b.len then
    agree (← slices a) (← slices b)
  else
    return false

/-! ## Walks -/

def walk (ring : ByteRing) : Steps Walk := do
  let runs ← slices ring
  return ⟨runs.head, runs.tail⟩

def walkSize (walk : Walk) : Steps Nat :=
  add walk.head.length walk.tail.length

/-- Takes steps from one end until nothing is left. What is left is summed up after every step. -/
def gather (side : End) (walk : Walk) : Steps (List UInt8) :=
  match _h : walk.step side with
  | (none, _) => return []
  | (some byte, rest) => do
    let _ ← walkSize rest
    return byte :: (← gather side rest)
termination_by walk.size
decreasing_by
  cases side with
  | front => exact Walk.size_next_lt _h
  | back => exact Walk.size_nextBack_lt _h

def collect (ring : ByteRing) : Steps (List UInt8) := do
  gather .front (← walk ring)

def collectBack (ring : ByteRing) : Steps (List UInt8) := do
  gather .back (← walk ring)

def follow (walk : Walk) : List End → Steps (List (Option UInt8 × Nat) × Walk)
  | [] => return ([], walk)
  | side :: sides => do
    let (byte, rest) := walk.step side
    let size ← walkSize rest
    let (met, last) ← follow rest sides
    return ((byte, size) :: met, last)

/-! ## Rendering and reading back -/

def digits : List Char :=
  ['0', '1', '2', '3', '4', '5', '6', '7', '8', '9', 'A', 'B', 'C', 'D', 'E', 'F']

/-- Writes the digits of all bytes after `text`. Each digit is looked up. -/
def appendHex (text : String) : List UInt8 → Steps String
  | [] => return text
  | byte :: bytes => do
    let high ← item digits (byte.toNat / 16)
    let low ← item digits (byte.toNat % 16)
    appendHex ((text.push high).push low) bytes

def hexOf (ring : ByteRing) (offset length : Nat) : Steps String := do
  let runs ← runs ring offset length
  -- the room that is set aside for the digits
  let _ ← mul length 2
  appendHex (← appendHex "" runs.head) runs.tail

def hex (ring : ByteRing) : Steps String :=
  hexOf ring 0 ring.len

def hexRange (ring : ByteRing) (offset length : Nat) : Steps (Except Fault String) :=
  match checkRange ring.len offset length with
  | .error fault => return .error fault
  | .ok () => do
    return .ok (← hexOf ring offset length)

def display (ring : ByteRing) : Steps String := do
  return Text.Latin1.decode (← collect ring)

def treeWith (quote : List UInt8 → String) (ring : ByteRing) : Steps Text.Tree := do
  let data ← toList ring
  return .record "RingBuffer"
    [("capacity", .number (← capacity ring)), ("len", .number ring.len),
      ("data", .atom (quote data))]

def tree (ring : ByteRing) : Steps Text.Tree :=
  treeWith Text.quotedBytes ring

section Codecs

variable {Rest Failure : Type} (codec : Codec Rest Failure)

def encode (ring : ByteRing) : Steps String := do
  let data ← toList ring
  return codec.write (← capacity ring) data

def decode (memory : Memory) (text : String) : Steps (Except Failure ByteRing) :=
  match codec.read text with
  | .error failure => return .error failure
  | .ok ((capacity, data), rest) => do
    match ← ofBytesWithCapacity memory data capacity with
    | .error fault => return .error (codec.refuse fault)
    | .ok ring =>
      match codec.finish rest with
      | .error failure => return .error failure
      | .ok () => return .ok ring

end Codecs

def toJson (ring : ByteRing) : Steps String :=
  encode jsonCodec ring

def hashFeeds (ring : ByteRing) : Steps (List HashFeed) := do
  return .word ring.len :: (← collect ring).map .byte

def ofLatin1 (text : String) : Steps ByteRing :=
  ofBytes (Text.Latin1.encode text)

def ofLatin1WithCapacity (memory : Memory) (text : String) (capacity : Nat) :
    Steps (Except Fault ByteRing) :=
  ofBytesWithCapacity memory (Text.Latin1.encode text) capacity

def ofJson (memory : Memory) (text : String) : Steps (Except Json.ReadFault ByteRing) :=
  decode jsonCodec memory text

end CyclicQueue.ByteRing.Guarded
