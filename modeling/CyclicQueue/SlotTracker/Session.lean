import CyclicQueue.Registers
import CyclicQueue.SlotTracker.Text

/-!
# Sessions with named trackers

A session keeps trackers under names. A request makes or copies a tracker, moves one, or compares
two. One that names a missing tracker changes nothing.
-/

namespace CyclicQueue.SlotTracker

/-- How a tracker is made. -/
inductive Recipe where
  | ofCapacity (capacity : Nat)
  | withPosition (capacity first len : Nat)
  | withOptions (capacity : Nat) (options : Options)
  deriving DecidableEq, Repr

def Recipe.make : Recipe → Except Fault SlotTracker
  | .ofCapacity capacity => SlotTracker.ofCapacity capacity
  | .withPosition capacity first len => SlotTracker.withPosition capacity first len
  | .withOptions capacity options => SlotTracker.withOptions capacity options

inductive Request where
  | make (target : String) (recipe : Recipe)
  | look (name : String)
  | move (name : String) (step : Move)
  | show (name : String) (expanded : Bool)
  | copy (name target : String)
  | compare (name other : String)
  deriving DecidableEq, Repr

/-- What a session answers, with the tracker that the request speaks to as it is afterwards. -/
inductive Reply where
  | missing
  | made (outcome : Except Fault SlotTracker)
  | seen (tracker : SlotTracker)
  | moved (done : Bool) (tracker : SlotTracker)
  | shown (text : String) (tracker : SlotTracker)
  | copied (copy tracker : SlotTracker)
  | compared (equal : Bool) (tracker : SlotTracker)

/-- Trackers under names. -/
structure Session where
  trackers : Registers SlotTracker

namespace Session

def start : Session :=
  ⟨.empty⟩

def put (session : Session) (name : String) (tracker : SlotTracker) : Session :=
  ⟨session.trackers.put name tracker⟩

/-- Carries out a request that speaks to one tracker. -/
def stepOn (session : Session) (name : String)
    (act : SlotTracker → Reply × Session) : Reply × Session :=
  match session.trackers.get? name with
  | none => (.missing, session)
  | some tracker => act tracker

def step (session : Session) : Request → Reply × Session
  | .make target recipe =>
    match recipe.make with
    | .error fault => (.made (.error fault), session)
    | .ok tracker => (.made (.ok tracker), session.put target tracker)
  | .look name => session.stepOn name fun tracker => (.seen tracker, session)
  | .move name step =>
    session.stepOn name fun tracker =>
      let (done, tracker) := tracker.move step
      (.moved done tracker, session.put name tracker)
  | .show name expanded =>
    session.stepOn name fun tracker =>
      (.shown (if expanded then tracker.tree.expanded else tracker.tree.line) tracker, session)
  | .copy name target =>
    session.stepOn name fun tracker => (.copied tracker tracker, session.put target tracker)
  | .compare name other =>
    session.stepOn name fun tracker =>
      session.stepOn other fun second => (.compared (tracker == second) tracker, session)

end Session

end CyclicQueue.SlotTracker
