import CyclicQueue.ByteRing.Basic

/-!
# Handing out ranges of a ring

A range of the contents leaves a ring as a list, as bytes written into a window of a target, or as
a ring of its own. All of them accept the same ranges, those of `checkRange`.
-/

namespace CyclicQueue.ByteRing

/-- The contents from `offset` on, `length` bytes, in a block with room for `capacity` bytes. -/
def exportReserving (memory : Memory) (ring : ByteRing) (offset length capacity : Nat) :
    Except Fault (List UInt8) := do
  checkRange ring.len offset length
  if capacity < length then throw (.badArgument .capacityBelowLength)
  memory.reserve capacity
  return (ring.runs offset length).bytes

def exportRange (memory : Memory) (ring : ByteRing) (offset length : Nat) :
    Except Fault (List UInt8) :=
  exportReserving memory ring offset length length

/-- Writes `bytes` over `target` from position `start` on, as far as `target` goes. -/
def overwrite : List UInt8 → Nat → List UInt8 → List UInt8
  | [], _, _ => []
  | target, 0, [] => target
  | _ :: target, 0, byte :: bytes => byte :: overwrite target 0 bytes
  | first :: target, start + 1, bytes => first :: overwrite target start bytes

@[simp] theorem length_overwrite (target : List UInt8) (start : Nat) (bytes : List UInt8) :
    (overwrite target start bytes).length = target.length := by
  fun_induction overwrite target start bytes with
  | case1 => rfl
  | case2 => rfl
  | case3 _ target byte bytes ih => simp [ih]
  | case4 first target start bytes ih => simp [ih]

/-- A window that lies inside the target is replaced, and nothing else. -/
theorem overwrite_eq {target bytes : List UInt8} {start : Nat}
    (h : start + bytes.length ≤ target.length) :
    overwrite target start bytes =
      target.take start ++ bytes ++ target.drop (start + bytes.length) := by
  fun_induction overwrite target start bytes with
  | case1 =>
    simp only [List.length_nil, Nat.le_zero_eq, Nat.add_eq_zero_iff] at h
    simp [List.eq_nil_of_length_eq_zero h.2]
  | case2 => simp
  | case3 _ target byte bytes ih =>
    simp only [List.length_cons] at h
    simp [ih (by omega)]
  | case4 first target start bytes ih =>
    simp only [List.length_cons] at h
    simp [ih (by omega), Nat.add_right_comm start 1]

/-- Copies the contents from `offset` on, `length` bytes, into `target` from `targetOffset` on,
one piece after the other. The second component is the target afterwards. -/
def copyTo (ring : ByteRing) (offset length : Nat) (target : List UInt8) (targetOffset : Nat) :
    Except Fault Unit × List UInt8 :=
  match checkRange ring.len offset length with
  | .error fault => (.error fault, target)
  | .ok () =>
    match checkRange target.length targetOffset length with
    | .error fault => (.error fault, target)
    | .ok () =>
      let runs := ring.runs offset length
      let started := overwrite target targetOffset runs.head
      (.ok (),
        if runs.tail.isEmpty then started
        else overwrite started (targetOffset + runs.head.length) runs.tail)

@[simp] theorem length_copyTo (ring : ByteRing) (offset length : Nat) (target : List UInt8)
    (targetOffset : Nat) :
    (ring.copyTo offset length target targetOffset).2.length = target.length := by
  unfold copyTo
  split
  · rfl
  · split
    · rfl
    · simp only
      split <;> simp

/-- A ring of the same capacity and contents whose contents start at slot 0. -/
def realign (ring : ByteRing) : ByteRing :=
  filled ring.capacity ring.slices.head ring.slices.tail

/-- A ring of the given capacity that holds the contents from `offset` on, `length` bytes. The two
pieces are added one after the other. -/
def copyRangeWithCapacity (memory : Memory) (ring : ByteRing) (offset length capacity : Nat) :
    Except Fault ByteRing := do
  checkRange ring.len offset length
  if capacity < length then throw (.badArgument .capacityBelowLength)
  let copy ← withCapacity memory capacity
  let runs := ring.runs offset length
  match copy.pushSlice runs.head with
  | (.error fault, _) => throw fault
  | (.ok (), copy) =>
    match copy.pushSlice runs.tail with
    | (.error fault, _) => throw fault
    | (.ok (), copy) => return copy

/-- A ring that holds the contents from `offset` on, `length` bytes, and is full unless there are
none. -/
def copyRange (memory : Memory) (ring : ByteRing) (offset length : Nat) : Except Fault ByteRing :=
  copyRangeWithCapacity memory ring offset length (max length 1)

end CyclicQueue.ByteRing
