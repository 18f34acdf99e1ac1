import CyclicQueue.ByteRing.Basic

/-!
# Rings in a text format

A ring is written as its capacity and its contents. The cursors are no part of it: a ring that is
read starts at slot 0. How such a record looks in a text is up to the format.
-/

namespace CyclicQueue.ByteRing

/-- A text format. It writes a capacity and a list of bytes, reads them from the front of a text,
tests what is left of the text, and words the reason why no ring has them. -/
structure Codec (Rest Failure : Type) where
  write : Nat → List UInt8 → String
  read : String → Except Failure ((Nat × List UInt8) × Rest)
  finish : Rest → Except Failure Unit
  refuse : Fault → Failure

namespace Codec

variable {Rest Failure : Type} (codec : Codec Rest Failure)

/-- What is written is read again, up to the end of the text. A capacity is a word. -/
def Faithful : Prop :=
  ∀ (capacity : Nat) (data : List UInt8), capacity < Nat.pow 2 64 →
    ∃ rest, codec.read (codec.write capacity data) = .ok ((capacity, data), rest) ∧
      codec.finish rest = .ok ()

def encode (ring : ByteRing) : String :=
  codec.write ring.capacity ring.toList

/-- Makes a ring of what the text gives, before the end of the text is tested. -/
def decode (memory : Memory) (text : String) : Except Failure ByteRing :=
  match codec.read text with
  | .error failure => .error failure
  | .ok ((capacity, data), rest) =>
    match ofBytesWithCapacity memory data capacity with
    | .error fault => .error (codec.refuse fault)
    | .ok ring =>
      match codec.finish rest with
      | .error failure => .error failure
      | .ok () => .ok ring

end Codec

end CyclicQueue.ByteRing
