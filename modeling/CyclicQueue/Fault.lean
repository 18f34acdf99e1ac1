/-!
# Why a request is refused

Every refusal names its cause. `Fault.message` is the wording of each cause, and `checkRange` is
the one rule by which a range of positions is accepted.
-/

namespace CyclicQueue

/-- What is wrong with an argument. -/
inductive BadArgument where
  | capacityNotPositive
  | capacityTooLarge
  | capacityBelowLength
  | offsetOutOfRange
  | endOutOfRange
  | countAboveCapacity
  | indexAboveCapacity
  | searchStartOutOfRange
  | firstOutOfRange
  | sizeAboveMaximum
  deriving DecidableEq, Repr

def BadArgument.message : BadArgument → String
  | .capacityNotPositive => "capacity must be positive"
  | .capacityTooLarge => "capacity too large"
  | .capacityBelowLength => "capacity smaller than length"
  | .offsetOutOfRange => "offset out of range"
  | .endOutOfRange => "offset + length out of range"
  | .countAboveCapacity => "count exceeds capacity"
  | .indexAboveCapacity => "index exceeds capacity"
  | .searchStartOutOfRange => "search offset out of range"
  | .firstOutOfRange => "first out of range"
  | .sizeAboveMaximum => "size exceeds maximum size"

/-- Why a request is refused. -/
inductive Fault where
  /-- An argument lies outside what the request allows, whatever the state. -/
  | badArgument (reason : BadArgument)
  | full
  | empty
  /-- More bytes, or more room, are asked for than there are. -/
  | tooSmall (requested available : Nat)
  deriving DecidableEq, Repr

def Fault.message : Fault → String
  | .badArgument reason => "invalid argument: " ++ reason.message
  | .full => "buffer full"
  | .empty => "buffer empty"
  | .tooSmall requested available =>
    "buffer too small: requested " ++ requested.repr ++ ", available " ++ available.repr

/-- Accepts `offset` and `length` as a range of a sequence of `size` elements. An offset other
than 0 names an element, also when the length is 0. -/
def checkRange (size offset length : Nat) : Except Fault Unit :=
  if offset ≠ 0 ∧ size ≤ offset then .error (.badArgument .offsetOutOfRange)
  else if offset + length ≤ size then .ok ()
  else .error (.badArgument .endOutOfRange)

theorem checkRange_eq_ok_iff {size offset length : Nat} :
    checkRange size offset length = .ok () ↔
      (offset = 0 ∨ offset < size) ∧ offset + length ≤ size := by
  unfold checkRange
  split
  · simp
    omega
  · split
    · simp
      omega
    · simp
      omega

theorem length_of_checkRange {α : Type} {elements : List α} {offset length : Nat}
    (h : checkRange elements.length offset length = .ok ()) :
    ((elements.drop offset).take length).length = length := by
  have hend := (checkRange_eq_ok_iff.1 h).2
  rw [List.length_take, List.length_drop]
  omega

theorem checkRange_zero_length (size : Nat) : checkRange size 0 size = .ok () := by
  simp [checkRange]

end CyclicQueue
