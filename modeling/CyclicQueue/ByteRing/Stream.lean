import CyclicQueue.ByteRing.Export
import CyclicQueue.Text.Utf8

/-!
# A ring as a stream

Writing accepts as many bytes as there is room for; reading hands over as many as there are. Both
tell how many that is, and neither fails. The loops built on them go on until a step moves nothing:
they write everything, fill a buffer, read up to the end, or pour one ring into another.
-/

namespace CyclicQueue.ByteRing

/-- Why a loop over a stream fails. -/
inductive StreamFault where
  /-- A single step failed. -/
  | refused (fault : Fault)
  /-- Bytes are left and none is accepted. -/
  | notAllWritten
  /-- The stream ends before the buffer is full. -/
  | endsEarly
  /-- The stream is no text. -/
  | noText
  deriving DecidableEq, Repr

def StreamFault.message : StreamFault → String
  | .refused fault => fault.message
  | .notAllWritten => "failed to write whole buffer"
  | .endsEarly => "failed to fill whole buffer"
  | .noText => "stream did not contain valid UTF-8"

/-! ## Single steps -/

/-- Adds as many of `bytes` as there is room for, and tells how many. -/
def write (ring : ByteRing) (bytes : List UInt8) : Except Fault Nat × ByteRing :=
  let count := min bytes.length ring.free
  match ring.pushRange bytes 0 count with
  | (.error fault, ring) => (.error fault, ring)
  | (.ok (), ring) => (.ok count, ring)

/-- A step that reads into a buffer: its outcome, the buffer and the ring afterwards. -/
structure Reading (α : Type) where
  outcome : α
  buffer : List UInt8
  ring : ByteRing
  deriving Repr

/-- Moves bytes to the front of `buffer`, as many as there are and fit, and tells how many. -/
def read (ring : ByteRing) (buffer : List UInt8) : Reading (Except Fault Nat) :=
  let count := min buffer.length ring.len
  match ring.copyTo 0 count buffer 0 with
  | (.error fault, buffer) => ⟨.error fault, buffer, ring⟩
  | (.ok (), buffer) =>
    match ring.discard count with
    | (.error fault, ring) => ⟨.error fault, buffer, ring⟩
    | (.ok (), ring) => ⟨.ok count, buffer, ring⟩

/-- Writes from the first of several chunks that is not empty. -/
def writeVectored (ring : ByteRing) (chunks : List (List UInt8)) : Except Fault Nat × ByteRing :=
  ring.write ((chunks.find? fun chunk => !chunk.isEmpty).getD [])

/-- Reads into the first of several buffers that is not empty. -/
def readVectored (ring : ByteRing) :
    List (List UInt8) → Except Fault Nat × List (List UInt8) × ByteRing
  | [] =>
    let reading := ring.read []
    (reading.outcome, [], reading.ring)
  | [] :: buffers =>
    let (outcome, buffers, ring) := ring.readVectored buffers
    (outcome, [] :: buffers, ring)
  | buffer :: buffers =>
    let reading := ring.read buffer
    (reading.outcome, reading.buffer :: buffers, reading.ring)

theorem length_buffer_read (ring : ByteRing) (buffer : List UInt8) :
    (ring.read buffer).buffer.length = buffer.length := by
  have hlen := ring.length_copyTo 0 (min buffer.length ring.len) buffer 0
  unfold read
  simp only
  split <;> rename_i hc <;> rw [hc] at hlen
  · exact hlen
  · split <;> exact hlen

theorem len_discard {ring left : ByteRing} {count : Nat}
    (h : ring.discard count = (.ok (), left)) : count ≤ ring.len ∧ left.len = ring.len - count := by
  unfold discard checkCount at h
  split at h
  · simp at h
  · next hc =>
    simp only [Prod.mk.injEq, true_and] at h
    refine ⟨?_, by rw [← h, advance]⟩
    split at hc
    · simp at hc
    · split at hc
      · simp at hc
      · omega

theorem len_read {ring : ByteRing} {buffer : List UInt8} {count : Nat}
    (h : (ring.read buffer).outcome = .ok count) :
    count ≤ ring.len ∧ (ring.read buffer).ring.len = ring.len - count := by
  unfold read at h ⊢
  rcases hc : ring.copyTo 0 (min buffer.length ring.len) buffer 0 with ⟨_ | _, _⟩
  · simp [hc] at h
  · rcases hd : ring.discard (min buffer.length ring.len) with ⟨_ | _, left⟩
    · simp [hc, hd] at h
    · simp only [hc, hd, Except.ok.injEq] at h ⊢
      exact h ▸ len_discard hd

/-! ## Loops -/

/-- Writes all of `bytes`, step by step. What fits has been written also where it fails. -/
def writeAll (ring : ByteRing) (bytes : List UInt8) : Except StreamFault Unit × ByteRing :=
  if _h : bytes = [] then (.ok (), ring)
  else
    match ring.write bytes with
    | (.error fault, ring) => (.error (.refused fault), ring)
    | (.ok 0, ring) => (.error .notAllWritten, ring)
    | (.ok (count + 1), ring) => ring.writeAll (bytes.drop (count + 1))
termination_by bytes.length
decreasing_by
  have := List.length_pos_iff.2 _h
  simp only [List.length_drop]
  omega

/-- Fills a buffer, step by step. -/
def readExact (ring : ByteRing) (buffer : List UInt8) : Reading (Except StreamFault Unit) :=
  if _h : buffer = [] then ⟨.ok (), [], ring⟩
  else
    let reading := ring.read buffer
    match reading.outcome with
    | .error fault => ⟨.error (.refused fault), reading.buffer, reading.ring⟩
    | .ok 0 => ⟨.error .endsEarly, reading.buffer, reading.ring⟩
    | .ok (count + 1) =>
      let rest := reading.ring.readExact (reading.buffer.drop (count + 1))
      ⟨rest.outcome, reading.buffer.take (count + 1) ++ rest.buffer, rest.ring⟩
termination_by buffer.length
decreasing_by
  have := List.length_pos_iff.2 _h
  simp only [List.length_drop, length_buffer_read]
  omega

/-- Reads up to the end, as many bytes at a time as `probe` has, and hands over all of them. -/
def drain (probe : List UInt8) (ring : ByteRing) : Except StreamFault (List UInt8) × ByteRing :=
  let reading := ring.read probe
  match _h : reading.outcome with
  | .error fault => (.error (.refused fault), reading.ring)
  | .ok 0 => (.ok [], reading.ring)
  | .ok (count + 1) =>
    match drain probe reading.ring with
    | (.error fault, ring) => (.error fault, ring)
    | (.ok bytes, ring) => (.ok (reading.buffer.take (count + 1) ++ bytes), ring)
termination_by ring.len
decreasing_by
  have := len_read _h
  omega

/-- The number of bytes asked for at a time where all are wanted. -/
def probeSize : Nat := 32

def readToEnd (ring : ByteRing) : Except StreamFault (List UInt8) × ByteRing :=
  drain (List.replicate probeSize 0) ring

/-- Reads up to the end and hands over the text that the bytes spell. -/
def readToText (ring : ByteRing) : Except StreamFault String × ByteRing :=
  match ring.readToEnd with
  | (.error fault, ring) => (.error fault, ring)
  | (.ok bytes, ring) =>
    match Text.Utf8.decode? bytes with
    | none => (.error .noText, ring)
    | some text => (.ok text, ring)

/-- Two rings after one was poured into the other, and how many bytes that were. -/
structure Pouring where
  outcome : Except StreamFault Nat
  source : ByteRing
  target : ByteRing
  deriving Repr

/-- Reads `source` up to its end, as many bytes at a time as `block` has, and writes all that was
read into `target` each time. What does not fit is lost. -/
def pourBy (block : List UInt8) (source target : ByteRing) : Pouring :=
  let reading := source.read block
  match _h : reading.outcome with
  | .error fault => ⟨.error (.refused fault), reading.ring, target⟩
  | .ok 0 => ⟨.ok 0, reading.ring, target⟩
  | .ok (count + 1) =>
    match target.writeAll (reading.buffer.take (count + 1)) with
    | (.error fault, target) => ⟨.error fault, reading.ring, target⟩
    | (.ok (), target) =>
      let rest := pourBy block reading.ring target
      { rest with outcome := rest.outcome.map (· + (count + 1)) }
termination_by source.len
decreasing_by
  have := len_read _h
  omega

/-- The number of bytes poured at a time. -/
def blockSize : Nat := 8192

def pour (source target : ByteRing) : Pouring :=
  pourBy (List.replicate blockSize 0) source target

end CyclicQueue.ByteRing
