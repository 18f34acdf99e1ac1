import CyclicQueue.Fault

/-!
# The memory that storage is taken from

Whether a block of bytes can be had depends on its size alone, and a smaller block can be had
whenever a larger one can.
-/

namespace CyclicQueue

/-- A memory that grants blocks of up to `limit` bytes. -/
structure Memory where
  limit : Nat
  deriving DecidableEq, Repr

namespace Memory

def reserve (memory : Memory) (size : Nat) : Except Fault Unit :=
  if size ≤ memory.limit then .ok () else .error (.badArgument .capacityTooLarge)

/-- A memory of 64 mebibytes. -/
def ordinary : Memory where
  limit := 64 * 1024 * 1024

theorem reserve_eq_ok_iff {memory : Memory} {size : Nat} :
    memory.reserve size = .ok () ↔ size ≤ memory.limit := by
  unfold reserve
  split <;> simp_all

theorem reserve_eq_error_iff {memory : Memory} {size : Nat} {fault : Fault} :
    memory.reserve size = .error fault ↔
      memory.limit < size ∧ fault = .badArgument .capacityTooLarge := by
  unfold reserve
  split
  · next hfit => exact iff_of_false (by rintro ⟨⟩) fun hlarge => by omega
  · next hlarge => simp [Nat.not_le.1 hlarge, eq_comm]

theorem reserve_mono {memory : Memory} {m n : Nat} (h : m ≤ n)
    (hn : memory.reserve n = .ok ()) : memory.reserve m = .ok () :=
  reserve_eq_ok_iff.2 (Nat.le_trans h (reserve_eq_ok_iff.1 hn))

end Memory

end CyclicQueue
