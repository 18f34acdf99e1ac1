import CyclicQueue.Proofs.ByteRing.Guarded.Stream
import CyclicQueue.Proofs.ByteRing.Sessions

/-!
# No request of a session is stopped

Rings that are made in a memory of the machine are one block each, and no request changes that. So
no step of a session is stopped: whatever numbers are handed in, and whatever the rings went
through before, the machine gives the replies of the session.
-/

namespace CyclicQueue.ByteRing

open Machine

/-! ## Requests that a machine can be handed -/

/-- The blocks of bytes that a change is handed. -/
def Update.blocks : Update → List (List UInt8)
  | .pushSlice bytes => [bytes]
  | .pushRange bytes _ _ => [bytes]
  | _ => []

/-- The blocks of bytes that a call is handed. -/
def Call.blocks : Call → List (List UInt8)
  | .update change => change.blocks
  | .copyTo _ _ target _ => [target]
  | .startsWith bytes => [bytes]
  | .endsWith bytes => [bytes]
  | .equalsBytes bytes => [bytes]
  | .find needle => [needle]
  | .findFrom needle _ => [needle]
  | .occurrences needle => [needle]
  | .write bytes => [bytes]
  | .writeAll bytes => [bytes]
  | .writeVectored chunks => chunks
  | .read buffer => [buffer]
  | .readExact buffer => [buffer]
  | .readVectored buffers => buffers
  | _ => []

/-- The bytes that a recipe is handed are one block. A ring that is made without asking the memory
is one block too. -/
def Recipe.InMachine : Recipe → Prop
  | .withCapacity _ => True
  | .ofBytes bytes => max bytes.length 1 + 1 ≤ blockLimit
  | .ofBytesWithCapacity bytes _ => bytes.length ≤ blockLimit
  | .ofRange bytes _ _ => bytes.length ≤ blockLimit
  | .ofRangeWithCapacity bytes _ _ _ => bytes.length ≤ blockLimit
  | .ofLatin1 text => max (Text.Latin1.encode text).length 1 + 1 ≤ blockLimit
  | .ofLatin1WithCapacity text _ => (Text.Latin1.encode text).length ≤ blockLimit
  | .ofJson text => ∀ fields rest, jsonRecord.read text.toList = .ok (fields, rest) →
      fields.2.length ≤ blockLimit

/-- What a request hands over is in blocks of the machine. Its numbers may be any. -/
def Request.InMachine : Request → Prop
  | .make _ recipe => recipe.InMachine
  | .call _ asked => ∀ block ∈ asked.blocks, block.length ≤ blockLimit
  | _ => True

/-- The memory grants blocks of the machine, and every ring is one of them. -/
structure Session.InMachine (session : Session) : Prop where
  limit_le : session.memory.limit ≤ blockLimit
  stored : ∀ name ring, session.rings.get? name = some ring → ring.Stored

/-! ## Rings in blocks -/

variable {ring source target : ByteRing} {memory : Memory}

theorem size_fresh (queue : Fifo) : (fresh queue).storage.size = queue.capacity + 1 := by
  rw [fresh, size_storage_append, blank, Array.size_replicate]

theorem stored_fresh {queue : Fifo} (hfits : queue.Fits)
    (hblock : queue.capacity + 1 ≤ blockLimit) : (fresh queue).Stored where
  valid := valid_fresh hfits
  size_le := by
    rw [size_fresh]
    exact hblock

/-- What is laid out by a plan was asked of the memory. -/
theorem stored_of_granted {bytes : List UInt8} {offset length capacity : Nat}
    (hblock : memory.reserve (capacity + 1) = .ok () → capacity + 1 ≤ blockLimit)
    (h : (planned memory bytes offset length capacity).map fresh = .ok ring) : ring.Stored := by
  cases hplan : planned memory bytes offset length capacity with
  | error fault =>
    rw [hplan] at h
    cases h
  | ok queue =>
    rw [hplan] at h
    cases h
    obtain ⟨-, -, -, hgranted, rfl⟩ := of_planned hplan
    exact stored_fresh (fits_of_planned hplan).1 (hblock hgranted)

theorem stored_of_planned (hmemory : memory.limit ≤ blockLimit) {bytes : List UInt8}
    {offset length capacity : Nat}
    (h : (planned memory bytes offset length capacity).map fresh = .ok ring) : ring.Stored :=
  stored_of_granted
    (fun hgranted => Nat.le_trans (Memory.reserve_eq_ok_iff.1 hgranted) hmemory) h

/-- A copy that is one block. -/
theorem Valid.stored_copy (h : source.Valid) {offset length capacity : Nat}
    (hblock : capacity + 1 ≤ blockLimit)
    (hcopy : source.copyRangeWithCapacity memory offset length capacity = .ok ring) :
    ring.Stored := by
  rw [h.copyRangeWithCapacity_eq] at hcopy
  exact stored_of_granted (fun _ => hblock) hcopy

theorem stored_of_make (hmemory : memory.limit ≤ blockLimit) {recipe : Recipe}
    (hrecipe : recipe.InMachine) (h : recipe.make memory = .ok ring) : ring.Stored := by
  have hbytes : ∀ {bytes capacity}, ofBytesWithCapacity memory bytes capacity = .ok ring →
      ring.Stored := by
    intro bytes capacity hmade
    rw [ofBytesWithCapacity, ofRangeWithCapacity_eq] at hmade
    exact stored_of_planned hmemory hmade
  cases recipe with
  | withCapacity capacity => exact Guarded.stored_of_withCapacity hmemory (eq_ok_of_mapError h)
  | ofBytes bytes =>
    cases h
    rw [ofBytes_eq_fresh]
    exact stored_fresh (fits_ofBytes bytes) hrecipe
  | ofBytesWithCapacity bytes capacity => exact hbytes (eq_ok_of_mapError h)
  | ofRange bytes offset length =>
    have hmade := eq_ok_of_mapError h
    rw [ofRange, ofRangeWithCapacity_eq] at hmade
    exact stored_of_planned hmemory hmade
  | ofRangeWithCapacity bytes offset length capacity =>
    have hmade := eq_ok_of_mapError h
    rw [ofRangeWithCapacity_eq] at hmade
    exact stored_of_planned hmemory hmade
  | ofLatin1 text =>
    cases h
    rw [ofLatin1, ofBytes_eq_fresh]
    exact stored_fresh (fits_ofBytes _) hrecipe
  | ofLatin1WithCapacity text capacity => exact hbytes (eq_ok_of_mapError h)
  | ofJson text =>
    obtain ⟨_, _, _, -, hmade, -⟩ := Codec.decode_eq_ok_iff.1 (eq_ok_of_mapError h)
    exact hbytes hmade

theorem Stored.derive (h : source.Stored) (hmemory : memory.limit ≤ blockLimit)
    {derivation : Derivation} (hderive : source.derive memory derivation = .ok ring) :
    ring.Stored := by
  cases derivation with
  | same =>
    cases hderive
    exact h
  | realign =>
    cases hderive
    rw [h.valid.realign_eq_fresh]
    apply stored_fresh (fits_fifo h.valid)
    rw [Fifo.capacity_fifo, ← h.valid.size_eq]
    exact h.size_le
  | copyRange offset length =>
    have hcopy : source.copyRange memory offset length = .ok ring := hderive
    rw [copyRange, h.valid.copyRangeWithCapacity_eq] at hcopy
    exact stored_of_planned hmemory hcopy
  | copyRangeWithCapacity offset length capacity =>
    have hcopy : source.copyRangeWithCapacity memory offset length capacity = .ok ring := hderive
    rw [h.valid.copyRangeWithCapacity_eq] at hcopy
    exact stored_of_planned hmemory hcopy

namespace Guarded

/-! ## Calls -/

theorem handing_eq {α : Type} (make : α → Removed) {result : Steps (Except Fault α × ByteRing)}
    {value : Except Fault α × ByteRing} (h : result = .ok value) :
    handing make result = .ok (ByteRing.handing make value) := by
  rw [h]
  rfl

theorem update_eq (h : ring.Stored) {change : Update}
    (hblocks : ∀ block ∈ change.blocks, block.length ≤ blockLimit) :
    update ring change = .ok (ring.update change) := by
  cases change with
  | clear => rfl
  | push byte => exact handing_eq _ (push_eq h byte)
  | pushSlice bytes => exact handing_eq _ (pushSlice_eq h (hblocks _ List.mem_cons_self))
  | pushRange bytes offset length =>
    exact handing_eq _ (pushRange_eq h (hblocks _ List.mem_cons_self) offset length)
  | pop => exact handing_eq _ (pop_eq h)
  | take count => exact handing_eq _ (take_eq h count)
  | discard count => exact handing_eq _ (discard_eq h count)

theorem updates_eq (h : ring.Stored) {changes : List Update}
    (hblocks : ∀ change ∈ changes, ∀ block ∈ change.blocks, block.length ≤ blockLimit) :
    updates ring changes = .ok (ring.updates changes) ∧ (ring.updates changes).2.Stored := by
  induction changes generalizing ring with
  | nil => exact ⟨rfl, h⟩
  | cons change changes ih =>
    have hleft := h.of_leads (.of_moved (h.valid.moved_update change))
    obtain ⟨hrest, hlast⟩ :=
      ih hleft fun later hlater => hblocks later (List.mem_cons_of_mem _ hlater)
    refine ⟨?_, hlast⟩
    rw [updates, update_eq h (hblocks change List.mem_cons_self), ok_bind]
    simp only [hrest, ok_bind]
    rfl

theorem blocks_of_mem_spins {count : Nat} {change : Update} (h : change ∈ spins count) :
    change.blocks = [] := by
  induction count with
  | zero => cases h
  | succ count ih =>
    rcases List.mem_cons.1 h with rfl | h
    · rfl
    · rcases List.mem_cons.1 h with rfl | h
      · rfl
      · exact ih h

theorem answer_eq (h : ring.Stored) (memory : Memory) {call : Call}
    (hblocks : ∀ block ∈ call.blocks, block.length ≤ blockLimit) :
    answer memory ring call = .ok (ring.answer memory call) := by
  cases call with
  | update change =>
    rw [answer, update_eq h hblocks]
    rfl
  | hasRoom count =>
    rw [answer, hasRoom_eq h]
    rfl
  | get index =>
    rw [answer, get_eq h]
    rfl
  | toList =>
    rw [answer, toList_eq h]
    rfl
  | exportRange offset length =>
    rw [answer, exportRange, exportReserving_eq h]
    rfl
  | exportReserving offset length capacity =>
    rw [answer, exportReserving_eq h]
    rfl
  | copyTo offset length target targetOffset =>
    rw [answer, copyTo_eq h _ _ (hblocks _ List.mem_cons_self)]
    rfl
  | startsWith bytes =>
    rw [answer, startsWith_eq h]
    rfl
  | endsWith bytes =>
    rw [answer, endsWith_eq h]
    rfl
  | equalsBytes bytes =>
    rw [answer, equalsBytes_eq h]
    rfl
  | find needle =>
    rw [answer, find, search_eq h]
    rfl
  | findFrom needle start =>
    rw [answer, findFrom_eq h]
    rfl
  | occurrences needle =>
    rw [answer, occurrences_eq h]
    rfl
  | count byte =>
    rw [answer, count_eq h]
    rfl
  | collect =>
    rw [answer, collect_eq h]
    rfl
  | collectBack =>
    rw [answer, collectBack_eq h]
    rfl
  | walk sides =>
    have hsize := size_walk_lt h
    rw [answer, walk_eq h, ok_bind, walkSize_eq hsize, ok_bind, follow_eq hsize]
    rfl
  | hex =>
    rw [answer, hex_eq h]
    rfl
  | hexRange offset length =>
    rw [answer, hexRange_eq h]
    rfl
  | display =>
    rw [answer, display_eq h]
    rfl
  | «show» expanded =>
    rw [answer, tree, treeWith_eq h]
    rfl
  | toJson =>
    rw [answer, toJson, encode_eq h]
    rfl
  | hash =>
    rw [answer, hashFeeds_eq h]
    rfl
  | write bytes =>
    rw [answer, write_eq h (hblocks _ List.mem_cons_self)]
    rfl
  | writeAll bytes =>
    rw [answer, writeAll_eq h (hblocks _ List.mem_cons_self)]
    rfl
  | writeVectored chunks =>
    have hchunks : ∀ chunk ∈ chunks, chunk.length ≤ blockLimit := hblocks
    rw [answer, writeVectored_eq h hchunks]
    rfl
  | flush => rfl
  | read buffer =>
    rw [answer, read_eq h (hblocks _ List.mem_cons_self)]
    rfl
  | readExact buffer =>
    rw [answer, readExact_eq h (hblocks _ List.mem_cons_self)]
    rfl
  | readVectored buffers =>
    have hbuffers : ∀ buffer ∈ buffers, buffer.length ≤ blockLimit := hblocks
    rw [answer, readVectored_eq h hbuffers]
    rfl
  | readToEnd =>
    rw [answer, readToEnd_eq h]
    rfl
  | readToText =>
    rw [answer, readToText_eq h]
    rfl

theorem look_eq (h : ring.Stored) :
    look ring = .ok ⟨ring.capacity, ring.free, ring.isFull, ring.slices⟩ := by
  have hlen := h.valid.len_lt
  have hcursors : ring.readPos < ring.storage.size ∧ ring.writePos < ring.storage.size :=
    ⟨h.valid.readPos_lt, h.valid.writePos_lt⟩
  rw [look, require_eq (decide_eq_true hcursors), ok_bind, capacity_eq h, ok_bind,
    require_eq (decide_eq_true h.valid.len_le), ok_bind,
    forward_eq h.valid.readPos_lt (by omega) h.size_le, ok_bind,
    require_eq (decide_eq_true h.valid.writePos_eq.symm), ok_bind, ok_bind, free_eq h, ok_bind,
    isFull_eq h, ok_bind, slices_eq h]
  rfl

/-! ## Sessions -/

theorem make_eq (hmemory : memory.limit ≤ blockLimit) {recipe : Recipe}
    (hrecipe : recipe.InMachine) : make memory recipe = .ok (recipe.make memory) := by
  cases recipe with
  | withCapacity capacity =>
    rw [make, withCapacity_eq hmemory]
    rfl
  | ofBytes bytes =>
    rw [make, ofBytes_eq hrecipe]
    rfl
  | ofBytesWithCapacity bytes capacity =>
    rw [make, ofBytesWithCapacity_eq hmemory hrecipe]
    rfl
  | ofRange bytes offset length =>
    rw [make, ofRange_eq hmemory hrecipe]
    rfl
  | ofRangeWithCapacity bytes offset length capacity =>
    rw [make, ofRangeWithCapacity_eq hmemory hrecipe]
    rfl
  | ofLatin1 text =>
    rw [make, ofLatin1, ofBytes_eq hrecipe]
    rfl
  | ofLatin1WithCapacity text capacity =>
    rw [make, ofLatin1WithCapacity, ofBytesWithCapacity_eq hmemory hrecipe]
    rfl
  | ofJson text =>
    have hdata : ∀ fields rest, jsonCodec.read text = .ok (fields, rest) →
        fields.2.length ≤ blockLimit := hrecipe
    rw [make, ofJson, decode_eq hmemory hdata]
    rfl

theorem derive_eq (h : ring.Stored) (hmemory : memory.limit ≤ blockLimit)
    (derivation : Derivation) :
    derive memory ring derivation = .ok (ring.derive memory derivation) := by
  cases derivation with
  | same => rfl
  | realign =>
    rw [derive, realign_eq h]
    rfl
  | copyRange offset length => exact copyRange_eq h hmemory offset length
  | copyRangeWithCapacity offset length capacity =>
    exact copyRangeWithCapacity_eq h hmemory offset length capacity

end Guarded

/-- Whatever is asked of the ring, the machine carries it out, and whatever writes down what the ring
hands over. -/
structure Unstopped (memory : Memory) (ring : ByteRing) : Prop where
  look : Guarded.look ring = .ok ⟨ring.capacity, ring.free, ring.isFull, ring.slices⟩
  answer : ∀ call : Call, (∀ block ∈ call.blocks, block.length ≤ blockLimit) →
    Guarded.answer memory ring call = .ok (ring.answer memory call)
  derive : memory.limit ≤ blockLimit → ∀ derivation : Derivation,
    Guarded.derive memory ring derivation = .ok (ring.derive memory derivation)
  treeWith : ∀ quote : List UInt8 → String,
    Guarded.treeWith quote ring = .ok (ring.treeWith quote)
  encode : ∀ {Rest Failure : Type} (codec : Codec Rest Failure),
    Guarded.encode codec ring = .ok (codec.encode ring)

theorem Stored.unstopped (h : ring.Stored) (memory : Memory) : ring.Unstopped memory where
  look := Guarded.look_eq h
  answer := fun _ => Guarded.answer_eq h memory
  derive := Guarded.derive_eq h
  treeWith := Guarded.treeWith_eq h
  encode := Guarded.encode_eq h

namespace Session.InMachine

variable {session : Session}

theorem put (h : session.InMachine) (name : String) (hring : ring.Stored) :
    (session.put name ring).InMachine := by
  refine ⟨h.limit_le, ?_⟩
  intro other held hheld
  rw [Session.put] at hheld
  by_cases hname : other = name
  · subst hname
    rw [Registers.get?_put_self] at hheld
    cases hheld
    exact hring
  · rw [Registers.get?_put_of_ne _ _ hname] at hheld
    exact h.stored other held hheld

/-- The machine carries out a request to one ring where it carries it out on every ring that is
one block. -/
theorem stepOn (h : session.InMachine) (name : String) {act : ByteRing → Reply × Session}
    {guarded : ByteRing → Steps (Reply × Session)}
    (hact : ∀ ring : ByteRing, ring.Stored →
      guarded ring = .ok (act ring) ∧ (act ring).2.InMachine) :
    Guarded.stepOn session name guarded = .ok (session.stepOn name act) ∧
      (session.stepOn name act).2.InMachine := by
  unfold Guarded.stepOn Session.stepOn
  cases hring : session.rings.get? name with
  | none => exact ⟨rfl, h⟩
  | some ring => exact hact ring (h.stored name ring hring)

/-- One request is carried out, and the rings are in blocks of the machine again. -/
theorem step (h : session.InMachine) {request : Request} (hrequest : request.InMachine) :
    Guarded.step session request = .ok (session.step request) ∧
      (session.step request).2.InMachine := by
  cases request with
  | make target recipe =>
    rw [Guarded.step, Guarded.make_eq h.limit_le hrequest, ok_bind, Session.step]
    cases hmade : recipe.make session.memory with
    | error fault => exact ⟨rfl, h⟩
    | ok ring => exact ⟨rfl, h.put target (stored_of_make h.limit_le hrequest hmade)⟩
  | look name =>
    apply h.stepOn
    intro ring hring
    rw [Guarded.look_eq hring]
    exact ⟨rfl, h⟩
  | call name call =>
    apply h.stepOn
    intro ring hring
    rw [Guarded.answer_eq hring session.memory hrequest]
    exact ⟨rfl, h.put name (hring.of_leads (hring.valid.leads_answer session.memory call))⟩
  | spin name count =>
    apply h.stepOn
    intro ring hring
    have hblocks : ∀ change ∈ spins count, ∀ block ∈ change.blocks, block.length ≤ blockLimit := by
      intro change hchange block hblock
      rw [Guarded.blocks_of_mem_spins hchange] at hblock
      cases hblock
    obtain ⟨hspun, hleft⟩ := Guarded.updates_eq hring hblocks
    rw [hspun]
    exact ⟨rfl, h.put name hleft⟩
  | derive name derivation target =>
    apply h.stepOn
    intro ring hring
    rw [Guarded.derive_eq hring h.limit_le, ok_bind]
    cases hderive : ring.derive session.memory derivation with
    | error fault => exact ⟨rfl, h⟩
    | ok copy => exact ⟨rfl, h.put target (hring.derive h.limit_le hderive)⟩
  | compare name other =>
    apply h.stepOn
    intro ring hring
    apply h.stepOn
    intro second hsecond
    rw [Guarded.equal_eq hring hsecond]
    exact ⟨rfl, h⟩
  | pour name target =>
    apply h.stepOn
    intro source hsource
    apply h.stepOn
    intro second hsecond
    obtain ⟨hleads, hleads'⟩ :=
      hsource.valid.leads_pourBy hsecond.valid (List.replicate blockSize 0)
    have hfilled : (source.pour second).target.Stored := hsecond.of_leads hleads'
    have hleft : ByteRing.Stored
        (if target = name then (source.pour second).target else (source.pour second).source) := by
      split
      · exact hfilled
      · exact hsource.of_leads hleads
    rw [Guarded.pour_eq hsource hsecond]
    exact ⟨rfl, (h.put name hleft).put target hfilled⟩

theorem run (h : session.InMachine) {requests : List Request}
    (hrequests : ∀ request ∈ requests, request.InMachine) :
    Guarded.run session requests = .ok (session.run requests) ∧
      (session.run requests).2.InMachine := by
  induction requests generalizing session with
  | nil => exact ⟨rfl, h⟩
  | cons request requests ih =>
    obtain ⟨hstep, hnext⟩ := h.step (hrequests request List.mem_cons_self)
    obtain ⟨hrest, hlast⟩ :=
      ih hnext fun later hlater => hrequests later (List.mem_cons_of_mem _ hlater)
    refine ⟨?_, hlast⟩
    rw [Guarded.run, hstep, ok_bind]
    simp only [hrest, ok_bind]
    rfl

end Session.InMachine

theorem Session.inMachine_start (hmemory : memory.limit ≤ blockLimit) :
    (Session.start memory).InMachine := by
  refine ⟨hmemory, ?_⟩
  intro name ring hring
  cases hring

/-- Whatever is asked of rings that are made in a memory of the machine, and whatever numbers are
handed in, no step is stopped: the machine gives the replies of the session. It also answers
whatever is asked of a ring that is left, however much the memory grants by then: after a large
block was had, a smaller one may be refused. -/
theorem requests_never_trap {memory : Memory} (hmemory : memory.limit ≤ blockLimit)
    {requests : List Request} (hrequests : ∀ request ∈ requests, request.InMachine) :
    Guarded.run (.start memory) requests = .ok ((Session.start memory).run requests) ∧
      ∀ name ring, ((Session.start memory).run requests).2.rings.get? name = some ring →
        ∀ later : Memory, ring.Unstopped later := by
  obtain ⟨hrun, hlast⟩ := (Session.inMachine_start hmemory).run hrequests
  refine ⟨hrun, ?_⟩
  intro name ring hring
  exact (hlast.stored name ring hring).unstopped

/-- Requests with the largest word as a capacity, an index, a length, an offset and the start of a
search, to a ring that goes round the end of its storage. -/
def largestWordRequests : List Request :=
  [.make "ring" (.withCapacity 3), .make "huge" (.withCapacity (wordLimit - 1)),
    .call "ring" (.update (.pushSlice [1, 2, 3])), .call "ring" (.update (.discard 2)),
    .call "ring" (.update (.pushRange [4, 5, 6] 0 2)), .call "ring" (.get (wordLimit - 1)),
    .call "ring" (.copyTo 1 (wordLimit - 1) [0, 0] (wordLimit - 1)),
    .call "ring" (.findFrom [5] (wordLimit - 1)), .call "ring" (.find [4, 5]),
    .derive "ring" (.copyRangeWithCapacity 0 2 (wordLimit - 1)) "huge"]

theorem requests_never_trap_largest_word :
    Guarded.run (.start .ordinary) largestWordRequests =
        .ok ((Session.start .ordinary).run largestWordRequests) ∧
      ∃ ring, ((Session.start .ordinary).run largestWordRequests).2.rings.get? "ring" = some ring ∧
        ring.toList = [3, 4, 5] ∧ Guarded.look ring = .ok ⟨3, 0, true, ⟨[3, 4], [5]⟩⟩ ∧
        Guarded.derive ⟨3⟩ ring (.copyRange 0 3) =
          .ok (.error (.badArgument .capacityTooLarge)) := by
  have hrequests : ∀ request ∈ largestWordRequests, request.InMachine := by
    simp [largestWordRequests, Request.InMachine, Recipe.InMachine, Call.blocks, Update.blocks,
      blockLimit]
  have hmemory : Memory.ordinary.limit ≤ blockLimit := by decide
  obtain ⟨hrun, hrings⟩ := requests_never_trap hmemory hrequests
  refine ⟨hrun, _, rfl, rfl, (hrings "ring" _ rfl .ordinary).look, ?_⟩
  exact (hrings "ring" _ rfl ⟨3⟩).derive (by decide) (.copyRange 0 3)

end CyclicQueue.ByteRing
