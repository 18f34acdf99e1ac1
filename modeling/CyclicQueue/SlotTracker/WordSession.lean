import CyclicQueue.SlotTracker.Session
import CyclicQueue.SlotTracker.Words

/-!
# Sessions with trackers in words

Trackers are made and moved in words of 64 bits, as the machine does it, and kept as the numbers
that the words stand for.
-/

namespace CyclicQueue

/-- The words of the numbers of a tracker. -/
def WordTracker.ofNumbers (tracker : SlotTracker) : WordTracker where
  capacity := .ofNat tracker.capacity
  first := .ofNat tracker.first
  next := .ofNat tracker.next
  len := .ofNat tracker.len
  options := tracker.options

namespace SlotTracker

/-- What is seen of a tracker in words. -/
def observeInWords (tracker : SlotTracker) : Observation :=
  (WordTracker.ofNumbers tracker).observe true

def Recipe.makeInWords : Recipe → Except Fault WordTracker
  | .ofCapacity capacity => WordTracker.build (.ofNat capacity) 0 0 {}
  | .withPosition capacity first len =>
    WordTracker.build (.ofNat capacity) (.ofNat first) (.ofNat len) {}
  | .withOptions capacity options => WordTracker.build (.ofNat capacity) 0 0 options

/-- Carries out a request in words. -/
def Session.stepInWords (session : Session) : Request → Reply × Session
  | .make target recipe =>
    match recipe.makeInWords with
    | .error fault => (.made (.error fault), session)
    | .ok words => (.made (.ok words.value), session.put target words.value)
  | .move name step =>
    session.stepOn name fun tracker =>
      let (done, words) := (WordTracker.ofNumbers tracker).move step
      (.moved done words.value, session.put name words.value)
  | request => session.step request

/-- Carries out one request after the other in words. -/
def Session.runInWords (session : Session) : List Request → List Reply × Session
  | [] => ([], session)
  | request :: requests =>
    let (reply, session) := session.stepInWords request
    let (replies, session) := session.runInWords requests
    (reply :: replies, session)

end SlotTracker

end CyclicQueue
