import CyclicQueue.ByteRing.Basic

/-!
# Looking for bytes in a ring

A needle is compared with a range of the contents piece by piece. An empty needle is found
nowhere, starts nothing and ends nothing.
-/

namespace CyclicQueue.ByteRing

/-- Whether `needle` stands in the contents at `offset`. The needle is cut where the contents
meet the end of the storage. -/
def matchesAt (ring : ByteRing) (offset : Nat) (needle : List UInt8) : Bool :=
  let runs := ring.runs offset needle.length
  runs.head == needle.take runs.head.length && runs.tail == needle.drop runs.head.length

/-- Whether the contents begin with `bytes`, which are not empty. -/
def startsWith (ring : ByteRing) (bytes : List UInt8) : Bool :=
  !bytes.isEmpty && bytes.length ≤ ring.len && ring.matchesAt 0 bytes

/-- Whether the contents end with `bytes`, which are not empty. -/
def endsWith (ring : ByteRing) (bytes : List UInt8) : Bool :=
  !bytes.isEmpty && bytes.length ≤ ring.len && ring.matchesAt (ring.len - bytes.length) bytes

/-- Compares the contents with `bytes` as `startsWith` does, except that no bytes equal an empty
ring. -/
def equalsBytes (ring : ByteRing) (bytes : List UInt8) : Bool :=
  (bytes.isEmpty && ring.isEmpty) || ring.startsWith bytes

/-- The first position at or after `start` where `needle` stands. -/
def search (ring : ByteRing) (needle : List UInt8) (start : Nat) : Option Nat :=
  if needle.isEmpty || ring.len < needle.length then none
  else
    (List.range' start (ring.len - needle.length + 1 - start)).find?
      fun offset => ring.matchesAt offset needle

def find (ring : ByteRing) (needle : List UInt8) : Option Nat :=
  ring.search needle 0

/-- The first position at or after `start` where `needle` stands. The start names a byte. -/
def findFrom (ring : ByteRing) (needle : List UInt8) (start : Nat) :
    Except Fault (Option Nat) :=
  if ring.len ≤ start then .error (.badArgument .searchStartOutOfRange)
  else .ok (ring.search needle start)

theorem search_spec {ring : ByteRing} {needle : List UInt8} {start offset : Nat}
    (h : ring.search needle start = some offset) :
    needle ≠ [] ∧ start ≤ offset ∧ offset + needle.length ≤ ring.len := by
  unfold search at h
  split at h
  · simp at h
  · next hn =>
    have hmem := List.mem_of_find?_eq_some h
    simp only [List.mem_range'_1] at hmem
    simp only [Bool.or_eq_true, List.isEmpty_iff, decide_eq_true_eq, not_or, Nat.not_lt] at hn
    exact ⟨hn.1, by omega⟩

/-- The number of matches met when every search goes on right after the match before it. -/
def countFrom (ring : ByteRing) (needle : List UInt8) (start : Nat) : Nat :=
  match h : ring.search needle start with
  | none => 0
  | some offset => ring.countFrom needle (offset + needle.length) + 1
termination_by ring.len + 1 - start
decreasing_by
  have hs := search_spec h
  have := List.length_pos_iff.2 hs.1
  omega

/-- The number of matches of `needle` that do not overlap. There is no such number for an empty
needle. -/
def occurrences (ring : ByteRing) (needle : List UInt8) : Option Nat :=
  if needle.isEmpty then none else some (ring.countFrom needle 0)

/-- The number of places where `byte` stands. -/
def count (ring : ByteRing) (byte : UInt8) : Nat :=
  (ring.occurrences [byte]).getD 0

end CyclicQueue.ByteRing
