import CyclicQueue.ByteRing.Call
import CyclicQueue.Registers

/-!
# Sessions with named rings

A session keeps rings under names. A request makes a ring, derives one from another, passes a call
on, or joins two rings. A request that fails changes no ring but the ones it speaks to, and one
that names a missing ring changes nothing.
-/

namespace CyclicQueue.ByteRing

/-- How a ring is made. -/
inductive Recipe where
  | withCapacity (capacity : Nat)
  | ofBytes (bytes : List UInt8)
  | ofBytesWithCapacity (bytes : List UInt8) (capacity : Nat)
  | ofRange (bytes : List UInt8) (offset length : Nat)
  | ofRangeWithCapacity (bytes : List UInt8) (offset length capacity : Nat)
  | ofLatin1 (text : String)
  | ofLatin1WithCapacity (text : String) (capacity : Nat)
  | ofJson (text : String)
  deriving DecidableEq, Repr

/-- Why a ring is not made. -/
inductive RecipeFault where
  | refused (fault : Fault)
  | unreadable (fault : Json.ReadFault)
  deriving DecidableEq, Repr

def Recipe.make (memory : Memory) : Recipe → Except RecipeFault ByteRing
  | .withCapacity capacity => (ByteRing.withCapacity memory capacity).mapError .refused
  | .ofBytes bytes => .ok (ByteRing.ofBytes bytes)
  | .ofBytesWithCapacity bytes capacity =>
    (ByteRing.ofBytesWithCapacity memory bytes capacity).mapError .refused
  | .ofRange bytes offset length =>
    (ByteRing.ofRange memory bytes offset length).mapError .refused
  | .ofRangeWithCapacity bytes offset length capacity =>
    (ByteRing.ofRangeWithCapacity memory bytes offset length capacity).mapError .refused
  | .ofLatin1 text => .ok (ByteRing.ofLatin1 text)
  | .ofLatin1WithCapacity text capacity =>
    (ByteRing.ofLatin1WithCapacity memory text capacity).mapError .refused
  | .ofJson text => (ByteRing.ofJson memory text).mapError .unreadable

/-- How a ring is derived from another one. -/
inductive Derivation where
  | same
  | realign
  | copyRange (offset length : Nat)
  | copyRangeWithCapacity (offset length capacity : Nat)
  deriving DecidableEq, Repr

def derive (memory : Memory) (ring : ByteRing) : Derivation → Except Fault ByteRing
  | .same => .ok ring
  | .realign => .ok ring.realign
  | .copyRange offset length => ring.copyRange memory offset length
  | .copyRangeWithCapacity offset length capacity =>
    ring.copyRangeWithCapacity memory offset length capacity

/-- The changes that move both cursors of an empty ring by `count` slots: as many bytes are added
and removed one at a time. -/
def spins : Nat → List Update
  | 0 => []
  | count + 1 => .push 0 :: .pop :: spins count

inductive Request where
  | make (target : String) (recipe : Recipe)
  | look (name : String)
  | call (name : String) (call : Call)
  | spin (name : String) (count : Nat)
  | derive (name : String) (derivation : Derivation) (target : String)
  | compare (name other : String)
  | pour (name target : String)
  deriving DecidableEq, Repr

/-- What a session answers, with the rings that the request speaks to as they are afterwards. -/
inductive Reply where
  | missing
  | made (outcome : Except RecipeFault ByteRing)
  | seen (ring : ByteRing)
  | answered (answer : Answer) (ring : ByteRing)
  | derived (outcome : Except Fault ByteRing) (ring : ByteRing)
  | compared (equal : Bool) (ring : ByteRing)
  | poured (outcome : Except StreamFault Nat) (source target : ByteRing)

/-- Rings under names, and the memory they are taken from. -/
structure Session where
  memory : Memory
  rings : Registers ByteRing

namespace Session

def start (memory : Memory) : Session :=
  ⟨memory, .empty⟩

def put (session : Session) (name : String) (ring : ByteRing) : Session :=
  { session with rings := session.rings.put name ring }

/-- Carries out a request that speaks to one ring. -/
def stepOn (session : Session) (name : String)
    (act : ByteRing → Reply × Session) : Reply × Session :=
  match session.rings.get? name with
  | none => (.missing, session)
  | some ring => act ring

def step (session : Session) : Request → Reply × Session
  | .make target recipe =>
    match recipe.make session.memory with
    | .error fault => (.made (.error fault), session)
    | .ok ring => (.made (.ok ring), session.put target ring)
  | .look name => session.stepOn name fun ring => (.seen ring, session)
  | .call name call =>
    session.stepOn name fun ring =>
      let (answer, ring) := ring.answer session.memory call
      (.answered answer ring, session.put name ring)
  | .spin name count =>
    session.stepOn name fun ring =>
      let ring := (ring.updates (spins count)).2
      (.seen ring, session.put name ring)
  | .derive name derivation target =>
    session.stepOn name fun ring =>
      match ring.derive session.memory derivation with
      | .error fault => (.derived (.error fault) ring, session)
      | .ok copy =>
        (.derived (.ok copy) (if target = name then copy else ring), session.put target copy)
  | .compare name other =>
    session.stepOn name fun ring =>
      session.stepOn other fun second => (.compared (ring == second) ring, session)
  | .pour name target =>
    session.stepOn name fun source =>
      session.stepOn target fun second =>
        let pouring := source.pour second
        let source := if target = name then pouring.target else pouring.source
        (.poured pouring.outcome source pouring.target,
          (session.put name source).put target pouring.target)

end Session

end CyclicQueue.ByteRing
