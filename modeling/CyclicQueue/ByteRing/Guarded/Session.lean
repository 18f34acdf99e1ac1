import CyclicQueue.ByteRing.Guarded.Look
import CyclicQueue.ByteRing.Session

/-!
# Sessions on the machine, step by step

Streams, calls and whole sessions as chains of machine steps. A loop over a stream has to get
further with every turn.
-/

namespace CyclicQueue.ByteRing.Guarded

open Machine

/-! ## Single steps of a stream -/

def write (ring : ByteRing) (bytes : List UInt8) : Steps (Except Fault Nat × ByteRing) := do
  let count := min bytes.length (← free ring)
  match ← pushRange ring bytes 0 count with
  | (.error fault, ring) => return (.error fault, ring)
  | (.ok (), ring) => return (.ok count, ring)

def read (ring : ByteRing) (buffer : List UInt8) : Steps (Reading (Except Fault Nat)) := do
  let count := min buffer.length ring.len
  match ← copyTo ring 0 count buffer 0 with
  | (.error fault, buffer) => return ⟨.error fault, buffer, ring⟩
  | (.ok (), buffer) =>
    match ← discard ring count with
    | (.error fault, ring) => return ⟨.error fault, buffer, ring⟩
    | (.ok (), ring) => return ⟨.ok count, buffer, ring⟩

def writeVectored (ring : ByteRing) (chunks : List (List UInt8)) :
    Steps (Except Fault Nat × ByteRing) :=
  write ring ((chunks.find? fun chunk => !chunk.isEmpty).getD [])

def readVectored (ring : ByteRing) :
    List (List UInt8) → Steps (Except Fault Nat × List (List UInt8) × ByteRing)
  | [] => do
    let reading ← read ring []
    return (reading.outcome, [], reading.ring)
  | [] :: buffers => do
    let (outcome, buffers, ring) ← readVectored ring buffers
    return (outcome, [] :: buffers, ring)
  | buffer :: buffers => do
    let reading ← read ring buffer
    return (reading.outcome, reading.buffer :: buffers, reading.ring)

/-! ## Loops over a stream -/

def writeAll (ring : ByteRing) (bytes : List UInt8) : Steps (Except StreamFault Unit × ByteRing) :=
  if bytes = [] then return (.ok (), ring)
  else do
    match ← write ring bytes with
    | (.error fault, ring) => return (.error (.refused fault), ring)
    | (.ok 0, ring) => return (.error .notAllWritten, ring)
    | (.ok (count + 1), ring) =>
      let rest ← slice bytes (count + 1) bytes.length
      if rest.length < bytes.length then
        writeAll ring rest
      else
        throw .stuck
termination_by bytes.length

def readExact (ring : ByteRing) (buffer : List UInt8) : Steps (Reading (Except StreamFault Unit)) :=
  if buffer = [] then return ⟨.ok (), [], ring⟩
  else do
    let reading ← read ring buffer
    match reading.outcome with
    | .error fault => return ⟨.error (.refused fault), reading.buffer, reading.ring⟩
    | .ok 0 => return ⟨.error .endsEarly, reading.buffer, reading.ring⟩
    | .ok (count + 1) =>
      let (front, back) ← splitAt reading.buffer (count + 1)
      if back.length < buffer.length then
        let rest ← readExact reading.ring back
        return ⟨rest.outcome, front ++ rest.buffer, rest.ring⟩
      else
        throw .stuck
termination_by buffer.length

def drain (probe : List UInt8) (ring : ByteRing) :
    Steps (Except StreamFault (List UInt8) × ByteRing) := do
  let reading ← read ring probe
  match reading.outcome with
  | .error fault => return (.error (.refused fault), reading.ring)
  | .ok 0 => return (.ok [], reading.ring)
  | .ok (count + 1) =>
    let front ← slice reading.buffer 0 (count + 1)
    if reading.ring.len < ring.len then
      match ← drain probe reading.ring with
      | (.error fault, ring) => return (.error fault, ring)
      | (.ok bytes, ring) => return (.ok (front ++ bytes), ring)
    else
      throw .stuck
termination_by ring.len

def readToEnd (ring : ByteRing) : Steps (Except StreamFault (List UInt8) × ByteRing) :=
  drain (List.replicate probeSize 0) ring

def readToText (ring : ByteRing) : Steps (Except StreamFault String × ByteRing) := do
  match ← readToEnd ring with
  | (.error fault, ring) => return (.error fault, ring)
  | (.ok bytes, ring) =>
    match Text.Utf8.decode? bytes with
    | none => return (.error .noText, ring)
    | some text => return (.ok text, ring)

/-- Pours on after `poured` bytes. -/
def pourBy (block : List UInt8) (poured : Nat) (source target : ByteRing) : Steps Pouring := do
  let reading ← read source block
  match reading.outcome with
  | .error fault => return ⟨.error (.refused fault), reading.ring, target⟩
  | .ok 0 => return ⟨.ok poured, reading.ring, target⟩
  | .ok (count + 1) =>
    match ← writeAll target (← slice reading.buffer 0 (count + 1)) with
    | (.error fault, target) => return ⟨.error fault, reading.ring, target⟩
    | (.ok (), target) =>
      let poured ← add poured (count + 1)
      if reading.ring.len < source.len then
        pourBy block poured reading.ring target
      else
        throw .stuck
termination_by source.len

def pour (source target : ByteRing) : Steps Pouring :=
  pourBy (List.replicate blockSize 0) 0 source target

/-! ## Calls -/

/-- A result told as what a change hands over. -/
def handing {α : Type} (make : α → Removed) (result : Steps (Except Fault α × ByteRing)) :
    Steps (Except Fault Removed × ByteRing) := do
  return ByteRing.handing make (← result)

def update (ring : ByteRing) : Update → Steps (Except Fault Removed × ByteRing)
  | .clear => return (.ok .nothing, ring.clear)
  | .push byte => handing (fun _ => .nothing) (push ring byte)
  | .pushSlice bytes => handing (fun _ => .nothing) (pushSlice ring bytes)
  | .pushRange bytes offset length =>
    handing (fun _ => .nothing) (pushRange ring bytes offset length)
  | .pop => handing .byte (pop ring)
  | .take count => handing .bytes (take ring count)
  | .discard count => handing (fun _ => .nothing) (discard ring count)

def updates (ring : ByteRing) : List Update → Steps (List (Except Fault Removed) × ByteRing)
  | [] => return ([], ring)
  | change :: changes => do
    let (outcome, ring) ← update ring change
    let (outcomes, ring) ← updates ring changes
    return (outcome :: outcomes, ring)

def answer (memory : Memory) (ring : ByteRing) : Call → Steps (Answer × ByteRing)
  | .update change => do
    let (outcome, ring) ← update ring change
    return (.plain (outcomeOf Removed.value outcome), ring)
  | .hasRoom count => do
    return (.value (.flag (← hasRoom ring count)), ring)
  | .get index => do
    return (.plain (outcomeOf .byte (← get ring index)), ring)
  | .toList => do
    return (.value (.bytes (← toList ring)), ring)
  | .exportRange offset length => do
    return (.plain (outcomeOf .bytes (← exportRange memory ring offset length)), ring)
  | .exportReserving offset length capacity => do
    return (.plain (outcomeOf .bytes (← exportReserving memory ring offset length capacity)), ring)
  | .copyTo offset length target targetOffset => do
    let (outcome, target) ← copyTo ring offset length target targetOffset
    return (⟨outcomeOf (fun _ => .done) outcome, [target]⟩, ring)
  | .startsWith bytes => do
    return (.value (.flag (← startsWith ring bytes)), ring)
  | .endsWith bytes => do
    return (.value (.flag (← endsWith ring bytes)), ring)
  | .equalsBytes bytes => do
    return (.value (.flag (← equalsBytes ring bytes)), ring)
  | .find needle => do
    return (.value (.position (← find ring needle)), ring)
  | .findFrom needle start => do
    return (.plain (outcomeOf .position (← findFrom ring needle start)), ring)
  | .occurrences needle => do
    return (.value (.position (← occurrences ring needle)), ring)
  | .count byte => do
    return (.value (.number (← count ring byte)), ring)
  | .collect => do
    return (.value (.bytes (← collect ring)), ring)
  | .collectBack => do
    return (.value (.bytes (← collectBack ring)), ring)
  | .walk sides => do
    let walk ← walk ring
    let size ← walkSize walk
    let (met, left) ← follow walk sides
    return (.value (.walked size met left), ring)
  | .hex => do
    return (.value (.text (← hex ring)), ring)
  | .hexRange offset length => do
    return (.plain (outcomeOf .text (← hexRange ring offset length)), ring)
  | .display => do
    return (.value (.text (← display ring)), ring)
  | .show expanded => do
    let tree ← tree ring
    return (.value (.text (if expanded then tree.expanded else tree.line)), ring)
  | .toJson => do
    return (.value (.text (← toJson ring)), ring)
  | .hash => do
    return (.value (.feeds (← hashFeeds ring)), ring)
  | .write bytes => do
    let (outcome, ring) ← write ring bytes
    return (.plain (outcomeOf .number outcome), ring)
  | .writeAll bytes => do
    let (outcome, ring) ← writeAll ring bytes
    return (.plain (streamOutcome (fun _ => .done) outcome), ring)
  | .writeVectored chunks => do
    let (outcome, ring) ← writeVectored ring chunks
    return (.plain (outcomeOf .number outcome), ring)
  | .flush => return (.value .done, ring)
  | .read buffer => do
    let reading ← read ring buffer
    return (⟨outcomeOf .number reading.outcome, [reading.buffer]⟩, reading.ring)
  | .readExact buffer => do
    let reading ← readExact ring buffer
    return (⟨streamOutcome (fun _ => .done) reading.outcome, [reading.buffer]⟩, reading.ring)
  | .readVectored buffers => do
    let (outcome, buffers, ring) ← readVectored ring buffers
    return (⟨outcomeOf .number outcome, buffers⟩, ring)
  | .readToEnd => do
    let (outcome, ring) ← readToEnd ring
    return (.plain (streamOutcome .bytes outcome), ring)
  | .readToText => do
    let (outcome, ring) ← readToText ring
    return (.plain (streamOutcome .text outcome), ring)

/-! ## Sessions -/

def make (memory : Memory) : Recipe → Steps (Except RecipeFault ByteRing)
  | .withCapacity capacity => return (withCapacity memory capacity).mapError .refused
  | .ofBytes bytes => do
    return .ok (← ofBytes bytes)
  | .ofBytesWithCapacity bytes capacity => do
    return (← ofBytesWithCapacity memory bytes capacity).mapError .refused
  | .ofRange bytes offset length => do
    return (← ofRange memory bytes offset length).mapError .refused
  | .ofRangeWithCapacity bytes offset length capacity => do
    return (← ofRangeWithCapacity memory bytes offset length capacity).mapError .refused
  | .ofLatin1 text => do
    return .ok (← ofLatin1 text)
  | .ofLatin1WithCapacity text capacity => do
    return (← ofLatin1WithCapacity memory text capacity).mapError .refused
  | .ofJson text => do
    return (← ofJson memory text).mapError .unreadable

def derive (memory : Memory) (ring : ByteRing) : Derivation → Steps (Except Fault ByteRing)
  | .same => return .ok ring
  | .realign => do
    return .ok (← realign ring)
  | .copyRange offset length => copyRange memory ring offset length
  | .copyRangeWithCapacity offset length capacity =>
    copyRangeWithCapacity memory ring offset length capacity

/-- What is told of a ring that is looked at. -/
structure Sight where
  capacity : Nat
  free : Nat
  isFull : Bool
  slices : Runs
  deriving DecidableEq, Repr

/-- Looks at a ring and tests that its cursors and its length fit together. -/
def look (ring : ByteRing) : Steps Sight := do
  require (ring.readPos < ring.storage.size ∧ ring.writePos < ring.storage.size)
  require (ring.len ≤ (← capacity ring))
  require ((← forward ring.storage.size ring.readPos ring.len) = ring.writePos)
  return ⟨← capacity ring, ← free ring, ← isFull ring, ← slices ring⟩

def stepOn (session : Session) (name : String) (act : ByteRing → Steps (Reply × Session)) :
    Steps (Reply × Session) :=
  match session.rings.get? name with
  | none => return (.missing, session)
  | some ring => act ring

def step (session : Session) : Request → Steps (Reply × Session)
  | .make target recipe => do
    match ← make session.memory recipe with
    | .error fault => return (.made (.error fault), session)
    | .ok ring => return (.made (.ok ring), session.put target ring)
  | .look name =>
    stepOn session name fun ring => do
      let _ ← look ring
      return (.seen ring, session)
  | .call name call =>
    stepOn session name fun ring => do
      let (answer, ring) ← answer session.memory ring call
      return (.answered answer ring, session.put name ring)
  | .spin name count =>
    stepOn session name fun ring => do
      let (_, ring) ← updates ring (spins count)
      return (.seen ring, session.put name ring)
  | .derive name derivation target =>
    stepOn session name fun ring => do
      match ← derive session.memory ring derivation with
      | .error fault => return (.derived (.error fault) ring, session)
      | .ok copy =>
        return (.derived (.ok copy) (if target = name then copy else ring),
          session.put target copy)
  | .compare name other =>
    stepOn session name fun ring =>
      stepOn session other fun second => do
        return (.compared (← equal ring second) ring, session)
  | .pour name target =>
    stepOn session name fun source =>
      stepOn session target fun second => do
        let pouring ← pour source second
        let source := if target = name then pouring.target else pouring.source
        return (.poured pouring.outcome source pouring.target,
          (session.put name source).put target pouring.target)

/-- Carries out one request after the other. -/
def run (session : Session) : List Request → Steps (List Reply × Session)
  | [] => return ([], session)
  | request :: requests => do
    let (reply, session) ← step session request
    let (replies, session) ← run session requests
    return (reply :: replies, session)

end CyclicQueue.ByteRing.Guarded
