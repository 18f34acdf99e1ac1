import CyclicQueue.ByteRing.Export

/-!
# A machine of 64-bit words

A run is a chain of steps. A step that leaves the words, reaches outside a block of memory or breaks
a condition that is stated to hold there is a trap and ends the run. Beside every step stands the
condition under which it is carried out.
-/

namespace CyclicQueue

/-- Why a step is not carried out. -/
inductive Trap where
  /-- A sum or a product that is no word. It would be taken modulo `2 ^ 64`. -/
  | overflow
  /-- A difference below zero. -/
  | underflow
  | zeroModulus
  /-- An index or a range that does not lie in its block. -/
  | outOfBounds
  /-- A copy onto a range of another length. -/
  | lengthMismatch
  | assertion
  /-- A loop that goes on without getting further. -/
  | stuck
  deriving DecidableEq, Repr

abbrev Steps (α : Type) :=
  Except Trap α

namespace Machine

def wordLimit : Nat := Nat.pow 2 64

/-- The most bytes that one block of memory can have. -/
def blockLimit : Nat := Nat.pow 2 63 - 1

theorem wordLimit_eq : wordLimit = 2 * blockLimit + 2 := rfl

@[simp] theorem ok_bind {ε α β : Type} (value : α) (next : α → Except ε β) :
    (Except.ok value : Except ε α) >>= next = next value := rfl

/-! ## Words -/

def require (condition : Bool) : Steps Unit :=
  if condition then .ok () else .error .assertion

def add (a b : Nat) : Steps Nat :=
  if a + b < wordLimit then .ok (a + b) else .error .overflow

def sub (a b : Nat) : Steps Nat :=
  if b ≤ a then .ok (a - b) else .error .underflow

def mul (a b : Nat) : Steps Nat :=
  if a * b < wordLimit then .ok (a * b) else .error .overflow

def mod (a b : Nat) : Steps Nat :=
  if b = 0 then .error .zeroModulus else .ok (a % b)

/-- The sum, if it is a word. -/
def sum? (a b : Nat) : Option Nat :=
  if a + b < wordLimit then some (a + b) else none

theorem require_eq {condition : Bool} (h : condition = true) : require condition = .ok () :=
  if_pos h

theorem add_eq {a b : Nat} (h : a + b < wordLimit) : add a b = .ok (a + b) :=
  if_pos h

theorem sub_eq {a b : Nat} (h : b ≤ a) : sub a b = .ok (a - b) :=
  if_pos h

theorem mul_eq {a b : Nat} (h : a * b < wordLimit) : mul a b = .ok (a * b) :=
  if_pos h

theorem mod_eq {a b : Nat} (h : 0 < b) : mod a b = .ok (a % b) :=
  if_neg (Nat.ne_of_gt h)

theorem eq_of_sum? {a b sum : Nat} (h : sum? a b = some sum) : sum = a + b := by
  unfold sum? at h
  split at h
  · exact (Option.some.inj h).symm
  · cases h

theorem le_of_sum?_eq_none {a b : Nat} (h : sum? a b = none) : wordLimit ≤ a + b := by
  unfold sum? at h
  split at h
  · cases h
  · next hsum => exact Nat.not_lt.1 hsum

/-! ## Blocks -/

section Lists

variable {α : Type}

def item (items : List α) (index : Nat) : Steps α :=
  match items[index]? with
  | none => .error .outOfBounds
  | some value => .ok value

/-- The range from `start` up to `stop`. -/
def slice (items : List α) (start stop : Nat) : Steps (List α) :=
  if start ≤ stop ∧ stop ≤ items.length then .ok ((items.drop start).take (stop - start))
  else .error .outOfBounds

def splitAt (items : List α) (place : Nat) : Steps (List α × List α) :=
  if place ≤ items.length then .ok (items.take place, items.drop place) else .error .outOfBounds

theorem item_eq {items : List α} {index : Nat} {value : α} (h : items[index]? = some value) :
    item items index = .ok value := by
  rw [item, h]

theorem slice_eq {items : List α} {start stop : Nat} (h : start ≤ stop) (h' : stop ≤ items.length) :
    slice items start stop = .ok ((items.drop start).take (stop - start)) :=
  if_pos ⟨h, h'⟩

theorem slice_zero {items : List α} {stop : Nat} (h : stop ≤ items.length) :
    slice items 0 stop = .ok (items.take stop) :=
  slice_eq (Nat.zero_le _) h

theorem slice_length {items : List α} {start : Nat} (h : start ≤ items.length) :
    slice items start items.length = .ok (items.drop start) := by
  rw [slice_eq h (Nat.le_refl _), List.take_of_length_le (Nat.le_of_eq List.length_drop)]

theorem splitAt_eq {items : List α} {place : Nat} (h : place ≤ items.length) :
    splitAt items place = .ok (items.take place, items.drop place) :=
  if_pos h

end Lists

/-- Copies `bytes` onto the range of `target` from `start` up to `stop`. -/
def copyOver (target : List UInt8) (start stop : Nat) (bytes : List UInt8) : Steps (List UInt8) :=
  if start ≤ stop ∧ stop ≤ target.length then
    if stop - start = bytes.length then .ok (ByteRing.overwrite target start bytes)
    else .error .lengthMismatch
  else .error .outOfBounds

theorem copyOver_eq {target bytes : List UInt8} {start stop : Nat}
    (h : start + bytes.length = stop) (h' : stop ≤ target.length) :
    copyOver target start stop bytes = .ok (ByteRing.overwrite target start bytes) := by
  rw [copyOver, if_pos (by omega), if_pos (by omega)]

/-! ## Storages -/

def load (storage : Array UInt8) (slot : Nat) : Steps UInt8 :=
  if slot < storage.size then .ok (storage.getD slot 0) else .error .outOfBounds

def store (storage : Array UInt8) (slot : Nat) (byte : UInt8) : Steps (Array UInt8) :=
  if slot < storage.size then .ok (storage.setIfInBounds slot byte) else .error .outOfBounds

/-- The bytes of the slots from `start` up to `stop`. -/
def view (storage : Array UInt8) (start stop : Nat) : Steps (List UInt8) :=
  if start ≤ stop ∧ stop ≤ storage.size then .ok (storage.extract start stop).toList
  else .error .outOfBounds

/-- Copies `bytes` onto the slots from `start` up to `stop`. -/
def fill (storage : Array UInt8) (start stop : Nat) (bytes : List UInt8) : Steps (Array UInt8) :=
  if start ≤ stop ∧ stop ≤ storage.size then
    if stop - start = bytes.length then .ok (ByteRing.writeRun storage start bytes)
    else .error .lengthMismatch
  else .error .outOfBounds

theorem load_eq {storage : Array UInt8} {slot : Nat} (h : slot < storage.size) :
    load storage slot = .ok (storage.getD slot 0) :=
  if_pos h

theorem store_eq {storage : Array UInt8} {slot : Nat} (h : slot < storage.size) (byte : UInt8) :
    store storage slot byte = .ok (storage.setIfInBounds slot byte) :=
  if_pos h

theorem view_eq {storage : Array UInt8} {start stop : Nat} (h : start ≤ stop)
    (h' : stop ≤ storage.size) :
    view storage start stop = .ok (storage.extract start stop).toList :=
  if_pos ⟨h, h'⟩

theorem fill_eq {storage : Array UInt8} {start stop : Nat} {bytes : List UInt8}
    (h : start + bytes.length = stop) (h' : stop ≤ storage.size) :
    fill storage start stop bytes = .ok (ByteRing.writeRun storage start bytes) := by
  rw [fill, if_pos (by omega), if_pos (by omega)]

/-! ## Cursors -/

def forward (size pos steps : Nat) : Steps Nat := do
  require (pos < size)
  require (steps ≤ size)
  mod (← add pos steps) size

/-- A cursor moves on a storage that is one block. -/
theorem forward_eq {size pos steps : Nat} (hpos : pos < size) (hsteps : steps ≤ size)
    (hsize : size ≤ blockLimit) : forward size pos steps = .ok (Cursor.forward size pos steps) := by
  have hword : pos + steps < wordLimit := by
    rw [wordLimit_eq]
    omega
  rw [forward, require_eq (decide_eq_true hpos), ok_bind, require_eq (decide_eq_true hsteps),
    ok_bind, add_eq hword, ok_bind, mod_eq (by omega)]
  rfl

/-- The most slots of a cycle on which a full turn from any slot is a word. -/
def cycleLimit : Nat := Nat.pow 2 63

theorem wordLimit_eq_cycles : wordLimit = 2 * cycleLimit := rfl

def back (size pos steps : Nat) : Steps Nat := do
  require (pos < size)
  require (steps ≤ size)
  mod (← sub (← add pos size) steps) size

/-- A cursor moves on a cycle that need not be a block. -/
theorem forward_eq_of_cycle {size pos steps : Nat} (hpos : pos < size) (hsteps : steps ≤ size)
    (hsize : size ≤ cycleLimit) : forward size pos steps = .ok (Cursor.forward size pos steps) := by
  have hword : pos + steps < wordLimit := by
    rw [wordLimit_eq_cycles]
    omega
  rw [forward, require_eq (decide_eq_true hpos), ok_bind, require_eq (decide_eq_true hsteps),
    ok_bind, add_eq hword, ok_bind, mod_eq (by omega)]
  rfl

theorem back_eq_of_cycle {size pos steps : Nat} (hpos : pos < size) (hsteps : steps ≤ size)
    (hsize : size ≤ cycleLimit) : back size pos steps = .ok (Cursor.back size pos steps) := by
  have hword : pos + size < wordLimit := by
    rw [wordLimit_eq_cycles]
    omega
  rw [back, require_eq (decide_eq_true hpos), ok_bind, require_eq (decide_eq_true hsteps),
    ok_bind, add_eq hword, ok_bind, sub_eq (by omega), ok_bind, mod_eq (by omega)]
  rfl

end Machine

end CyclicQueue
