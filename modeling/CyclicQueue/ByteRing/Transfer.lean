import CyclicQueue.ByteRing.Stream

/-!
# Runs of single stream steps

A transfer writes or reads once, and a run makes one after the other. What a run has taken in and
handed over is told by its answers alone: by the counts, and by the buffers that were read into.
-/

namespace CyclicQueue.ByteRing

inductive Transfer where
  | write (bytes : List UInt8)
  | read (buffer : List UInt8)
  deriving DecidableEq, Repr

/-- What a transfer answers: the number of bytes it moved, and the caller's bytes afterwards. -/
structure Transferred where
  outcome : Except Fault Nat
  bytes : List UInt8
  deriving Repr

def transfer (ring : ByteRing) : Transfer → Transferred × ByteRing
  | .write bytes =>
    let (outcome, ring) := ring.write bytes
    (⟨outcome, bytes⟩, ring)
  | .read buffer =>
    let reading := ring.read buffer
    (⟨reading.outcome, reading.buffer⟩, reading.ring)

def transfers (ring : ByteRing) : List Transfer → List Transferred × ByteRing
  | [] => ([], ring)
  | step :: steps =>
    let (answer, ring) := ring.transfer step
    let (answers, ring) := ring.transfers steps
    (answer :: answers, ring)

theorem transfers_cons (ring : ByteRing) (step : Transfer) (steps : List Transfer) :
    ring.transfers (step :: steps) =
      ((ring.transfer step).1 :: ((ring.transfer step).2.transfers steps).1,
        ((ring.transfer step).2.transfers steps).2) := rfl

namespace Transfer

/-- The bytes that a write says to have taken in. -/
def accepted : Transfer → Transferred → List UInt8
  | .write _, ⟨.ok count, bytes⟩ => bytes.take count
  | _, _ => []

/-- The bytes that a read says to have handed over. -/
def delivered : Transfer → Transferred → List UInt8
  | .read _, ⟨.ok count, bytes⟩ => bytes.take count
  | _, _ => []

/-- A transfer that fails or counts no bytes has moved none. -/
theorem eq_nil_of_count (step : Transfer) {answer : Transferred}
    (h : ∀ count, answer.outcome = .ok count → count = 0) :
    step.accepted answer = [] ∧ step.delivered answer = [] := by
  rcases answer with ⟨fault | count, bytes⟩
  · cases step <;> exact ⟨rfl, rfl⟩
  · obtain rfl : count = 0 := h count rfl
    cases step <;> exact ⟨rfl, rfl⟩

def allAccepted (steps : List Transfer) (answers : List Transferred) : List UInt8 :=
  (List.zipWith accepted steps answers).flatten

def allDelivered (steps : List Transfer) (answers : List Transferred) : List UInt8 :=
  (List.zipWith delivered steps answers).flatten

@[simp] theorem allAccepted_cons (step : Transfer) (steps : List Transfer) (answer : Transferred)
    (answers : List Transferred) : allAccepted (step :: steps) (answer :: answers) =
      step.accepted answer ++ allAccepted steps answers := rfl

@[simp] theorem allDelivered_cons (step : Transfer) (steps : List Transfer) (answer : Transferred)
    (answers : List Transferred) : allDelivered (step :: steps) (answer :: answers) =
      step.delivered answer ++ allDelivered steps answers := rfl

end Transfer

end CyclicQueue.ByteRing
