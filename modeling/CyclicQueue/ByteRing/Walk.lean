import CyclicQueue.ByteRing.Basic

/-!
# Walking over a ring from both ends

A walk holds the bytes still to come as the two pieces of the contents. A step from the front takes
from the head while it lasts and then from the tail; a step from the back takes from the tail while
it lasts and then from the head.
-/

namespace CyclicQueue.ByteRing

/-- A walk over the contents: what is left of the two pieces. -/
structure Walk where
  head : List UInt8
  tail : List UInt8
  deriving DecidableEq, Repr

/-- The end a step of a walk takes from. -/
inductive End where
  | front
  | back
  deriving DecidableEq, Repr

def walk (ring : ByteRing) : Walk where
  head := ring.slices.head
  tail := ring.slices.tail

/-- Takes the last element off a list. -/
def unsnoc? (bytes : List UInt8) : Option (List UInt8 × UInt8) :=
  bytes.getLast?.map fun byte => (bytes.dropLast, byte)

namespace Walk

def size (walk : Walk) : Nat :=
  walk.head.length + walk.tail.length

/-- The bounds that a walk tells for the number of bytes still to come. -/
def sizeHint (walk : Walk) : Nat × Option Nat :=
  (walk.size, some walk.size)

/-- The bytes still to come, from the front. -/
def toList (walk : Walk) : List UInt8 :=
  walk.head ++ walk.tail

def next (walk : Walk) : Option UInt8 × Walk :=
  match walk.head with
  | byte :: head => (some byte, { walk with head })
  | [] =>
    match walk.tail with
    | byte :: tail => (some byte, { walk with tail })
    | [] => (none, walk)

def nextBack (walk : Walk) : Option UInt8 × Walk :=
  match unsnoc? walk.tail with
  | some (tail, byte) => (some byte, { walk with tail })
  | none =>
    match unsnoc? walk.head with
    | some (head, byte) => (some byte, { walk with head })
    | none => (none, walk)

def step (walk : Walk) : End → Option UInt8 × Walk
  | .front => walk.next
  | .back => walk.nextBack

theorem size_next_lt {walk : Walk} {byte : UInt8} {rest : Walk}
    (h : walk.next = (some byte, rest)) : rest.size < walk.size := by
  obtain ⟨head, tail⟩ := walk
  cases head <;> cases tail <;> simp only [next, Prod.mk.injEq, reduceCtorEq, false_and] at h <;>
    simp [size, ← h.2]

theorem size_nextBack_lt {walk : Walk} {byte : UInt8} {rest : Walk}
    (h : walk.nextBack = (some byte, rest)) : rest.size < walk.size := by
  obtain ⟨head, tail⟩ := walk
  rcases List.eq_nil_or_concat tail with rfl | ⟨tail, last, rfl⟩
  · rcases List.eq_nil_or_concat head with rfl | ⟨head, last, rfl⟩
    · simp [nextBack, unsnoc?] at h
    · obtain ⟨-, rfl⟩ : last = byte ∧ ⟨head, []⟩ = rest := by simpa [nextBack, unsnoc?] using h
      simp only [size, List.length_concat, List.length_nil]
      omega
  · obtain ⟨-, rfl⟩ : last = byte ∧ ⟨head, tail⟩ = rest := by simpa [nextBack, unsnoc?] using h
    simp only [size, List.length_concat]
    omega

/-- The bytes met by going on from the front to the end. -/
def collect (walk : Walk) : List UInt8 :=
  match _h : walk.next with
  | (none, _) => []
  | (some byte, rest) => byte :: rest.collect
termination_by walk.size
decreasing_by exact size_next_lt _h

/-- The bytes met by going on from the back to the end. -/
def collectBack (walk : Walk) : List UInt8 :=
  match _h : walk.nextBack with
  | (none, _) => []
  | (some byte, rest) => byte :: rest.collectBack
termination_by walk.size
decreasing_by exact size_nextBack_lt _h

/-- Takes one step after the other. Every step is told as what it met and how many bytes were to
come after it. -/
def follow (walk : Walk) : List End → List (Option UInt8 × Nat) × Walk
  | [] => ([], walk)
  | side :: sides =>
    let (byte, rest) := walk.step side
    let (met, last) := rest.follow sides
    ((byte, rest.size) :: met, last)

end Walk

end CyclicQueue.ByteRing
