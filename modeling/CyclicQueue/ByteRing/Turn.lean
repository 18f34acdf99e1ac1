import CyclicQueue.ByteRing.Stream

/-!
# Loops over a stream, turn by turn

A loop stands somewhere and takes turns, one single step of a stream in each, until a turn ends it.
Nothing but the turns says whether it ever ends.
-/

namespace CyclicQueue

/-- A loop that goes on from `state` ends with `result` after `turns` turns. -/
inductive Ends {State Result : Type} (turn : State → State ⊕ Result) :
    State → Nat → Result → Prop
  | last {state : State} {result : Result} (h : turn state = .inr result) :
    Ends turn state 1 result
  | more {state next : State} {turns : Nat} {result : Result} (h : turn state = .inl next)
    (hrest : Ends turn next turns result) : Ends turn state (turns + 1) result

namespace ByteRing

/-- A ring, and the bytes that are still to be written into it. -/
structure WriteLoop where
  ring : ByteRing
  rest : List UInt8

def WriteLoop.turn (loop : WriteLoop) : WriteLoop ⊕ (Except StreamFault Unit × ByteRing) :=
  if loop.rest = [] then .inr (.ok (), loop.ring)
  else
    match loop.ring.write loop.rest with
    | (.error fault, ring) => .inr (.error (.refused fault), ring)
    | (.ok 0, ring) => .inr (.error .notAllWritten, ring)
    | (.ok (count + 1), ring) => .inl ⟨ring, loop.rest.drop (count + 1)⟩

/-- A ring, and a buffer that has been filled from it up to `rest`. -/
structure FillLoop where
  ring : ByteRing
  front : List UInt8
  rest : List UInt8

def FillLoop.turn (loop : FillLoop) : FillLoop ⊕ Reading (Except StreamFault Unit) :=
  if loop.rest = [] then .inr ⟨.ok (), loop.front, loop.ring⟩
  else
    let reading := loop.ring.read loop.rest
    match reading.outcome with
    | .error fault => .inr ⟨.error (.refused fault), loop.front ++ reading.buffer, reading.ring⟩
    | .ok 0 => .inr ⟨.error .endsEarly, loop.front ++ reading.buffer, reading.ring⟩
    | .ok (count + 1) =>
      .inl ⟨reading.ring, loop.front ++ reading.buffer.take (count + 1),
        reading.buffer.drop (count + 1)⟩

/-- A ring, and what has been read off it after `taken` turns. -/
structure DrainLoop where
  taken : Nat
  ring : ByteRing
  out : List UInt8

/-- How many bytes are asked for may change from turn to turn: `probes` are the buffers that they
are read into. -/
def DrainLoop.turn (probes : Nat → List UInt8) (loop : DrainLoop) :
    DrainLoop ⊕ (Except StreamFault (List UInt8) × ByteRing) :=
  let reading := loop.ring.read (probes loop.taken)
  match reading.outcome with
  | .error fault => .inr (.error (.refused fault), reading.ring)
  | .ok 0 => .inr (.ok loop.out, reading.ring)
  | .ok (count + 1) =>
    .inl ⟨loop.taken + 1, reading.ring, loop.out ++ reading.buffer.take (count + 1)⟩

/-- Two rings, and how many bytes have been poured from one into the other. -/
structure PourLoop where
  source : ByteRing
  target : ByteRing
  poured : Nat

def PourLoop.turn (block : List UInt8) (loop : PourLoop) : PourLoop ⊕ Pouring :=
  let reading := loop.source.read block
  match reading.outcome with
  | .error fault => .inr ⟨.error (.refused fault), reading.ring, loop.target⟩
  | .ok 0 => .inr ⟨.ok loop.poured, reading.ring, loop.target⟩
  | .ok (count + 1) =>
    match loop.target.writeAll (reading.buffer.take (count + 1)) with
    | (.error fault, target) => .inr ⟨.error fault, reading.ring, target⟩
    | (.ok (), target) => .inl ⟨reading.ring, target, loop.poured + (count + 1)⟩

end ByteRing

end CyclicQueue
