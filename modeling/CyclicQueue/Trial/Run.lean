import CyclicQueue.ByteRing.Export
import CyclicQueue.ByteRing.Search
import CyclicQueue.ByteRing.Walk
import CyclicQueue.Trial.Action

/-!
# Running a trial

Every action is carried out on a ring and on a plain list that stands for its contents. What the
ring answers is checked against the list after each action, and so is what the ring holds. A list
is cut only where it is long enough; a cut that is not possible is a disagreement as well.
-/

namespace CyclicQueue.Trial

/-- In what a ring and its list disagree. -/
inductive Disagreement where
  | capacity
  | answer
  | fault
  | cut
  | cursors
  | size
  | contents
  deriving DecidableEq, Repr

/-- What a check gives. -/
abbrev Checked (α : Type) :=
  Except Disagreement α

def require (condition : Bool) (disagreement : Disagreement) : Checked Unit :=
  if condition then .ok () else .error disagreement

/-- Cuts `length` elements from `offset` on out of a list that has them. -/
def cut {α : Type} (items : List α) (offset length : Nat) : Checked (List α) :=
  if offset + length ≤ items.length then .ok ((items.drop offset).take length)
  else .error .cut

/-- The first of the given positions at which `needle` stands in `items`. -/
def firstAt (items needle : List UInt8) : List Nat → Checked (Option Nat)
  | [] => .ok none
  | position :: positions =>
    match cut items position needle.length with
    | .error disagreement => .error disagreement
    | .ok window => if window = needle then .ok (some position) else firstAt items needle positions

/-- The first position from `start` on at which `needle` stands in `items`, unless it is empty. -/
def findIn (items needle : List UInt8) (start : Nat) : Checked (Option Nat) :=
  if needle.isEmpty || items.length < needle.length then .ok none
  else firstAt items needle (List.range' start (items.length - needle.length + 1 - start))

theorem mem_of_firstAt {items needle : List UInt8} {positions : List Nat} {position : Nat}
    (h : firstAt items needle positions = .ok (some position)) : position ∈ positions := by
  induction positions with
  | nil => simp [firstAt] at h
  | cons first positions ih =>
    unfold firstAt at h
    split at h
    · cases h
    · split at h
      · cases h
        exact List.mem_cons_self
      · exact List.mem_cons_of_mem _ (ih h)

theorem findIn_bounds {items needle : List UInt8} {start position : Nat}
    (h : findIn items needle start = .ok (some position)) :
    needle ≠ [] ∧ start ≤ position ∧ position + needle.length ≤ items.length := by
  unfold findIn at h
  split at h
  · cases h
  · next hn =>
    have hmem := mem_of_firstAt h
    simp only [List.mem_range'_1] at hmem
    simp only [Bool.or_eq_true, List.isEmpty_iff, decide_eq_true_eq, not_or, Nat.not_lt] at hn
    exact ⟨hn.1, by omega⟩

/-- The number of matches met when every search goes on right after the match before it. -/
def countIn (items needle : List UInt8) (start : Nat) : Checked Nat :=
  match _found : findIn items needle start with
  | .error disagreement => .error disagreement
  | .ok none => .ok 0
  | .ok (some position) =>
    (countIn items needle (position + needle.length)).map (· + 1)
termination_by items.length + 1 - start
decreasing_by
  have hbounds := findIn_bounds _found
  have := List.length_pos_iff.2 hbounds.1
  omega

/-- The value of a request that was not refused. -/
def value? {α : Type} : Except Fault α → Option α
  | .ok value => some value
  | .error _ => none

/-- Carries out an action on a ring of the given capacity and on the list of its contents. -/
def act (memory : Memory) (capacity : Nat) (ring : ByteRing) (held : List UInt8) :
    Action → Checked (ByteRing × List UInt8)
  | .push byte =>
    match ring.push byte with
    | (.ok (), ring) => return (ring, held ++ [byte])
    | (.error fault, ring) => do
      require (fault == .full) .fault
      require (held.length == capacity) .answer
      return (ring, held)
  | .pushRange bytes offset length =>
    match ring.pushRange bytes offset.toNat length.toNat with
    | (.ok (), ring) => do
      let added ← cut bytes offset.toNat length.toNat
      return (ring, held ++ added)
    | (.error (.badArgument _), ring) => do
      require
        ((offset.toNat != 0 && bytes.length ≤ offset.toNat) ||
          bytes.length < offset.toNat + length.toNat)
        .answer
      return (ring, held)
    | (.error (.tooSmall requested available), ring) => do
      require (requested == length.toNat) .answer
      require (held.length ≤ capacity && available == capacity - held.length) .answer
      require (available < length.toNat) .answer
      return (ring, held)
    | (.error _, _) => throw .fault
  | .pop => do
    let (popped, ring) := ring.pop
    require (value? popped == held.head?) .answer
    return (ring, held.drop 1)
  | .take count =>
    match ring.take count.toNat with
    | (.ok bytes, ring) => do
      let oldest ← cut held 0 count.toNat
      require (bytes == oldest) .answer
      return (ring, held.drop count.toNat)
    | (.error _, ring) => do
      require (held.length < count.toNat) .answer
      return (ring, held)
  | .discard count =>
    match ring.discard count.toNat with
    | (.ok (), ring) => do
      let _ ← cut held 0 count.toNat
      return (ring, held.drop count.toNat)
    | (.error _, ring) => do
      require (held.length < count.toNat) .answer
      return (ring, held)
  | .get index => do
    require (value? (ring.get index.toNat) == held[index.toNat]?) .answer
    return (ring, held)
  | .find needle start => do
    match ring.findFrom needle start.toNat with
    | .ok found => do
      let expected ← findIn held needle start.toNat
      require (found == expected) .answer
    | .error _ => require (held.length ≤ start.toNat) .answer
    let expected ← findIn held needle 0
    require (ring.find needle == expected) .answer
    return (ring, held)
  | .occurrences needle => do
    let expected ←
      if needle.isEmpty then pure none else (countIn held needle 0).map some
    require (ring.occurrences needle == expected) .answer
    return (ring, held)
  | .startsWith bytes => do
    require (ring.startsWith bytes == (!bytes.isEmpty && bytes.isPrefixOf held)) .answer
    return (ring, held)
  | .endsWith bytes => do
    require (ring.endsWith bytes == (!bytes.isEmpty && bytes.isSuffixOf held)) .answer
    return (ring, held)
  | .copyTo offset length targetSize targetOffset =>
    match
      ring.copyTo offset.toNat length.toNat (List.replicate targetSize.toNat 0)
        targetOffset.toNat with
    | (.ok (), target) => do
      let written ← cut target targetOffset.toNat length.toNat
      let expected ← cut held offset.toNat length.toNat
      require (written == expected) .answer
      return (ring, held)
    | (.error _, _) => return (ring, held)
  | .copyRange offset length extra =>
    let size := max length.toNat 1 + extra.toNat
    match ring.copyRangeWithCapacity memory offset.toNat length.toNat size with
    | .ok copy => do
      let expected ← cut held offset.toNat length.toNat
      require (copy.toList == expected) .answer
      require (copy.capacity == size) .answer
      return (ring, held)
    | .error _ => return (ring, held)
  | .clear => return (ring.clear, [])

/-- Checks a ring of the given capacity against the list of its contents. -/
def checkState (capacity : Nat) (ring : ByteRing) (held : List UInt8) : Checked Unit := do
  require ring.isConsistent .cursors
  require (ring.len == held.length) .size
  require (held.length ≤ capacity && ring.free == capacity - held.length) .size
  require (ring.walk.collect == held) .contents

/-- Carries out one action after the other, with a check after each. -/
def actAll (memory : Memory) (capacity : Nat) (ring : ByteRing) (held : List UInt8) :
    List Action → Checked Unit
  | [] => return ()
  | action :: actions => do
    let (ring, held) ← act memory capacity ring held action
    checkState capacity ring held
    actAll memory capacity ring held actions

/-- Runs a trial. A capacity of 0 gives no ring and is the only one that gives none. -/
def Plan.run (memory : Memory) (plan : Plan) : Checked Unit :=
  match ByteRing.withCapacity memory plan.capacity.toNat with
  | .error _ => require (plan.capacity == 0) .capacity
  | .ok ring => actAll memory plan.capacity.toNat ring [] plan.actions

end CyclicQueue.Trial
