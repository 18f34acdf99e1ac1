import CyclicQueue.Proofs.ByteRing.Building
import CyclicQueue.Proofs.ByteRing.Rendering
import CyclicQueue.Proofs.ByteRing.Streaming
import Mathlib.Data.List.Forall2

/-!
# Where the contents lie does not show

Two rings of one capacity and one contents answer every request alike, wherever their cursors stand
and whatever bytes their spare slots hold. Only the cut between the two pieces of the contents may
differ.
-/

namespace CyclicQueue.ByteRing

/-- One capacity and one contents. Cursors and spare slots are left open. -/
structure Alike (a b : ByteRing) : Prop where
  left : a.Valid
  right : b.Valid
  capacity_eq : a.capacity = b.capacity
  toList_eq : a.toList = b.toList

/-- A value without the place where the bytes of a walk are cut in two. -/
def Value.uncut : Value → Value
  | .walked size met left => .walked size met ⟨left.toList, []⟩
  | value => value

def Answer.uncut (answer : Answer) : Answer :=
  { answer with outcome := answer.outcome.map Value.uncut }

theorem Valid.alike {ring : ByteRing} (h : ring.Valid) : ring.Alike ring :=
  ⟨h, h, rfl, rfl⟩

namespace Alike

variable {a b : ByteRing}

theorem of_fifo (ha : a.Valid) (hb : b.Valid) (hfifo : a.fifo = b.fifo) : a.Alike b := by
  obtain ⟨hcapacity, hlist⟩ := fifo_eq_iff.1 hfifo
  exact ⟨ha, hb, hcapacity, hlist⟩

theorem fifo_eq (h : a.Alike b) : a.fifo = b.fifo :=
  fifo_eq_iff.2 ⟨h.capacity_eq, h.toList_eq⟩

theorem len_eq (h : a.Alike b) : a.len = b.len := by
  rw [← h.left.length_toList, h.toList_eq, h.right.length_toList]

theorem free_eq (h : a.Alike b) : a.free = b.free := by
  rw [free, h.capacity_eq, h.len_eq, free]

/-! ## Changes -/

theorem append (h : a.Alike b) {bytes : List UInt8} (hb : bytes.length ≤ a.free) :
    (a.append bytes).Alike (b.append bytes) := by
  have hb' : bytes.length ≤ b.free := h.free_eq ▸ hb
  apply of_fifo (h.left.append hb) (h.right.append hb')
  rw [h.left.fifo_append hb, h.right.fifo_append hb', h.fifo_eq]

theorem advance (h : a.Alike b) {count : Nat} (hc : count ≤ a.len) :
    (a.advance count).Alike (b.advance count) := by
  have hc' : count ≤ b.len := h.len_eq ▸ hc
  apply of_fifo (h.left.advance hc) (h.right.advance hc')
  rw [h.left.fifo_advance hc, h.right.fifo_advance hc', h.fifo_eq]

theorem update (h : a.Alike b) (change : Update) :
    (a.update change).1 = (b.update change).1 ∧
      (a.update change).2.Alike (b.update change).2 := by
  have ha := h.left.matches_update change
  have hb := h.right.matches_update change
  rw [h.fifo_eq] at ha
  exact ⟨ha.outcome.trans hb.outcome.symm, of_fifo ha.valid hb.valid (ha.fifo.trans hb.fifo.symm)⟩

theorem updates (h : a.Alike b) (changes : List Update) :
    (a.updates changes).2.Alike (b.updates changes).2 := by
  obtain ⟨-, ha, hfifo⟩ := h.left.updates_fifo changes
  obtain ⟨-, hb, hfifo'⟩ := h.right.updates_fifo changes
  rw [h.fifo_eq] at hfifo
  exact of_fifo ha hb (hfifo.trans hfifo'.symm)

/-! ## Looking and rendering -/

theorem get_eq (h : a.Alike b) (index : Nat) : a.get index = b.get index := by
  rw [h.left.get_eq, h.right.get_eq, h.capacity_eq, h.toList_eq]

theorem exportReserving_eq (h : a.Alike b) (memory : Memory) (offset length capacity : Nat) :
    a.exportReserving memory offset length capacity =
      b.exportReserving memory offset length capacity := by
  rw [h.left.exportReserving_eq, h.right.exportReserving_eq, h.toList_eq]

theorem copyTo_eq (h : a.Alike b) (offset length : Nat) (target : List UInt8)
    (targetOffset : Nat) :
    a.copyTo offset length target targetOffset = b.copyTo offset length target targetOffset := by
  rw [h.left.copyTo_eq, h.right.copyTo_eq, h.toList_eq]

theorem startsWith_eq (h : a.Alike b) (bytes : List UInt8) :
    a.startsWith bytes = b.startsWith bytes := by
  rw [Bool.eq_iff_iff, h.left.startsWith_iff, h.right.startsWith_iff, h.toList_eq]

theorem endsWith_eq (h : a.Alike b) (bytes : List UInt8) :
    a.endsWith bytes = b.endsWith bytes := by
  rw [Bool.eq_iff_iff, h.left.endsWith_iff, h.right.endsWith_iff, h.toList_eq]

theorem equalsBytes_eq (h : a.Alike b) (bytes : List UInt8) :
    a.equalsBytes bytes = b.equalsBytes bytes := by
  rw [equalsBytes, equalsBytes, isEmpty, isEmpty, h.len_eq, h.startsWith_eq]

theorem search_eq (h : a.Alike b) (needle : List UInt8) (start : Nat) :
    a.search needle start = b.search needle start := by
  apply Option.ext
  intro offset
  rw [h.left.search_eq_some_iff, h.right.search_eq_some_iff, h.toList_eq]

theorem findFrom_eq (h : a.Alike b) (needle : List UInt8) (start : Nat) :
    a.findFrom needle start = b.findFrom needle start := by
  rw [findFrom, findFrom, h.len_eq, h.search_eq]

theorem occurrences_eq (h : a.Alike b) (needle : List UInt8) :
    a.occurrences needle = b.occurrences needle := by
  rw [h.left.occurrences_eq, h.right.occurrences_eq, h.toList_eq]

theorem follow_eq (h : a.Alike b) (sides : List End) :
    (a.walk.follow sides).1 = (b.walk.follow sides).1 ∧
      (a.walk.follow sides).2.toList = (b.walk.follow sides).2.toList := by
  obtain ⟨hmet, hleft⟩ := a.walk.follow_eq sides
  obtain ⟨hmet', hleft'⟩ := b.walk.follow_eq sides
  rw [toList_walk, h.toList_eq] at hmet hleft
  exact ⟨hmet.trans hmet'.symm, hleft.trans hleft'.symm⟩

theorem treeWith_eq (h : a.Alike b) (quote : List UInt8 → String) :
    a.treeWith quote = b.treeWith quote := by
  rw [treeWith, treeWith, h.capacity_eq, h.len_eq, h.toList_eq]

theorem encode_eq (h : a.Alike b) {Rest Failure : Type} (codec : Codec Rest Failure) :
    codec.encode a = codec.encode b := by
  rw [Codec.encode, Codec.encode, h.capacity_eq, h.toList_eq]

theorem equal_eq {c d : ByteRing} (h : a.Alike b) (h' : c.Alike d) : (a == c) = (b == d) := by
  change a.equal c = b.equal d
  rw [Bool.eq_iff_iff, h.left.equal_iff h'.left, h.right.equal_iff h'.right, h.toList_eq,
    h'.toList_eq]

theorem hexRange_eq (h : a.Alike b) (offset length : Nat) :
    a.hexRange offset length = b.hexRange offset length := by
  rw [h.left.hexRange_eq, h.right.hexRange_eq, h.toList_eq]

theorem hashFeeds_eq (h : a.Alike b) : a.hashFeeds = b.hashFeeds := by
  rw [h.left.hashFeeds_eq, h.right.hashFeeds_eq, h.toList_eq]

/-! ## Streams -/

theorem advance_min (h : a.Alike b) (count : Nat) :
    (a.advance (min count a.len)).Alike (b.advance (min count b.len)) := by
  rw [← h.len_eq]
  exact h.advance (Nat.min_le_right _ _)

theorem append_take (h : a.Alike b) (bytes : List UInt8) :
    (a.append (bytes.take a.free)).Alike (b.append (bytes.take b.free)) := by
  rw [← h.free_eq]
  exact h.append (List.length_take_le _ _)

theorem advance_len (h : a.Alike b) : (a.advance a.len).Alike (b.advance b.len) := by
  rw [← h.len_eq]
  exact h.advance (Nat.le_refl _)

theorem write (h : a.Alike b) (bytes : List UInt8) :
    (a.write bytes).1 = (b.write bytes).1 ∧ (a.write bytes).2.Alike (b.write bytes).2 := by
  rw [h.left.write_eq, h.right.write_eq]
  refine ⟨?_, h.append_take bytes⟩
  rw [h.free_eq]

theorem writeAll (h : a.Alike b) (bytes : List UInt8) :
    (a.writeAll bytes).1 = (b.writeAll bytes).1 ∧
      (a.writeAll bytes).2.Alike (b.writeAll bytes).2 := by
  rw [h.left.writeAll_eq, h.right.writeAll_eq]
  refine ⟨?_, h.append_take bytes⟩
  rw [h.free_eq]

theorem read (h : a.Alike b) (buffer : List UInt8) :
    (a.read buffer).outcome = (b.read buffer).outcome ∧
      (a.read buffer).buffer = (b.read buffer).buffer ∧
      (a.read buffer).ring.Alike (b.read buffer).ring := by
  rw [h.left.read_eq, h.right.read_eq]
  refine ⟨?_, ?_, h.advance_min _⟩
  · rw [h.len_eq]
  · rw [h.len_eq, h.toList_eq]

theorem readExact (h : a.Alike b) (buffer : List UInt8) :
    (a.readExact buffer).outcome = (b.readExact buffer).outcome ∧
      (a.readExact buffer).buffer = (b.readExact buffer).buffer ∧
      (a.readExact buffer).ring.Alike (b.readExact buffer).ring := by
  rw [h.left.readExact_eq, h.right.readExact_eq]
  refine ⟨?_, ?_, h.advance_min _⟩
  · rw [h.len_eq]
  · rw [h.len_eq, h.toList_eq]

theorem readVectored (h : a.Alike b) (buffers : List (List UInt8)) :
    (a.readVectored buffers).1 = (b.readVectored buffers).1 ∧
      (a.readVectored buffers).2.1 = (b.readVectored buffers).2.1 ∧
      (a.readVectored buffers).2.2.Alike (b.readVectored buffers).2.2 := by
  induction buffers with
  | nil =>
    obtain ⟨houtcome, -, hring⟩ := h.read []
    exact ⟨houtcome, rfl, hring⟩
  | cons buffer buffers ih =>
    cases buffer with
    | nil =>
      obtain ⟨houtcome, hbuffers, hring⟩ := ih
      exact ⟨houtcome, congrArg ([] :: ·) hbuffers, hring⟩
    | cons byte buffer =>
      obtain ⟨houtcome, hbuffer, hring⟩ := h.read (byte :: buffer)
      exact ⟨houtcome, congrArg (· :: buffers) hbuffer, hring⟩

theorem readToEnd (h : a.Alike b) :
    a.readToEnd.1 = b.readToEnd.1 ∧ a.readToEnd.2.Alike b.readToEnd.2 := by
  rw [h.left.readToEnd_eq, h.right.readToEnd_eq]
  refine ⟨?_, h.advance_len⟩
  rw [h.toList_eq]

theorem readToText (h : a.Alike b) :
    a.readToText.1 = b.readToText.1 ∧ a.readToText.2.Alike b.readToText.2 := by
  rw [h.left.readToText_eq, h.right.readToText_eq]
  refine ⟨?_, h.advance_len⟩
  rw [h.toList_eq]

/-- Pouring moves the same blocks on both sides. The induction is on what is left of the source. -/
theorem pourBy {c d : ByteRing} (h : a.Alike b) (h' : c.Alike d) (block : List UInt8) :
    (pourBy block a c).outcome = (pourBy block b d).outcome ∧
      (pourBy block a c).source.Alike (pourBy block b d).source ∧
      (pourBy block a c).target.Alike (pourBy block b d).target := by
  induction hn : a.len using Nat.strongRecOn generalizing a b c d with
  | _ n ih =>
    rw [h.left.pourBy_eq, h.right.pourBy_eq, ← h.len_eq, ← h.toList_eq]
    by_cases hzero : min block.length a.len = 0
    · rw [if_pos hzero, if_pos hzero]
      exact ⟨rfl, h, h'⟩
    · rw [if_neg hzero, if_neg hzero]
      have hleft := h.advance (Nat.min_le_right block.length a.len)
      obtain ⟨houtcome, htarget⟩ := h'.writeAll (a.toList.take block.length)
      rcases hc : c.writeAll (a.toList.take block.length) with ⟨outcome, c'⟩
      rcases hd : d.writeAll (a.toList.take block.length) with ⟨outcome', d'⟩
      rw [hc, hd] at houtcome htarget
      cases houtcome
      cases outcome with
      | error fault => exact ⟨rfl, hleft, htarget⟩
      | ok _ =>
        obtain ⟨hcount, hsource, hrest⟩ :=
          ih (n - min block.length a.len) (by omega) hleft htarget (by rw [len_advance, hn])
        exact ⟨congrArg (Except.map (· + min block.length a.len)) hcount, hsource, hrest⟩

/-! ## Calls -/

/-- Two answers that differ at most in where a walk is cut, and the rings after them. -/
structure SameAnswer (x y : Answer × ByteRing) : Prop where
  answer_eq : x.1.uncut = y.1.uncut
  alike : x.2.Alike y.2

theorem sameAnswer (h : a.Alike b) {x y : Answer} (hxy : x = y) : SameAnswer (x, a) (y, b) :=
  ⟨congrArg Answer.uncut hxy, h⟩

theorem answer_walk (h : a.Alike b) (memory : Memory) (sides : List End) :
    SameAnswer (a.answer memory (.walk sides)) (b.answer memory (.walk sides)) := by
  obtain ⟨hmet, hleft⟩ := h.follow_eq sides
  refine ⟨?_, h⟩
  simp only [answer, Answer.uncut, Answer.value, Answer.plain, Except.map, Value.uncut, hmet, hleft,
    Walk.size_eq, toList_walk, h.toList_eq]

/-- One call answers alike on both sides and leaves the rings alike. -/
theorem answer (h : a.Alike b) (memory : Memory) (call : Call) :
    SameAnswer (a.answer memory call) (b.answer memory call) := by
  cases call with
  | update change =>
    obtain ⟨houtcome, hring⟩ := h.update change
    exact hring.sameAnswer (congrArg (Answer.plain ∘ outcomeOf Removed.value) houtcome)
  | hasRoom count => exact h.sameAnswer (by rw [hasRoom, hasRoom, h.free_eq])
  | get index => exact h.sameAnswer (by rw [h.get_eq])
  | toList => exact h.sameAnswer (by rw [h.toList_eq])
  | exportRange offset length =>
    exact h.sameAnswer (by rw [exportRange, exportRange, h.exportReserving_eq])
  | exportReserving offset length capacity =>
    exact h.sameAnswer (by rw [h.exportReserving_eq])
  | copyTo offset length target targetOffset =>
    simp only [ByteRing.answer, h.copyTo_eq offset length target targetOffset]
    exact h.sameAnswer rfl
  | startsWith bytes => exact h.sameAnswer (by rw [h.startsWith_eq])
  | endsWith bytes => exact h.sameAnswer (by rw [h.endsWith_eq])
  | equalsBytes bytes => exact h.sameAnswer (by rw [h.equalsBytes_eq])
  | find needle => exact h.sameAnswer (by rw [find, find, h.search_eq])
  | findFrom needle start => exact h.sameAnswer (by rw [h.findFrom_eq])
  | occurrences needle => exact h.sameAnswer (by rw [h.occurrences_eq])
  | count byte => exact h.sameAnswer (by rw [count, count, h.occurrences_eq])
  | collect =>
    apply h.sameAnswer
    rw [Walk.collect_eq, Walk.collect_eq, toList_walk, toList_walk, h.toList_eq]
  | collectBack =>
    apply h.sameAnswer
    rw [Walk.collectBack_eq, Walk.collectBack_eq, toList_walk, toList_walk, h.toList_eq]
  | walk sides => exact h.answer_walk memory sides
  | hex => exact h.sameAnswer (by rw [hex_eq, hex_eq, h.toList_eq])
  | hexRange offset length => exact h.sameAnswer (by rw [h.hexRange_eq])
  | display => exact h.sameAnswer (by rw [display_eq, display_eq, h.toList_eq])
  | «show» expanded => exact h.sameAnswer (by rw [tree, tree, h.treeWith_eq])
  | toJson => exact h.sameAnswer (by rw [toJson, toJson, h.encode_eq])
  | hash => exact h.sameAnswer (by rw [h.hashFeeds_eq])
  | write bytes =>
    obtain ⟨houtcome, hring⟩ := h.write bytes
    exact hring.sameAnswer (congrArg (Answer.plain ∘ outcomeOf Value.number) houtcome)
  | writeAll bytes =>
    obtain ⟨houtcome, hring⟩ := h.writeAll bytes
    exact hring.sameAnswer (congrArg (Answer.plain ∘ streamOutcome fun _ => Value.done) houtcome)
  | writeVectored chunks =>
    obtain ⟨houtcome, hring⟩ := h.write ((chunks.find? fun chunk => !chunk.isEmpty).getD [])
    exact hring.sameAnswer (congrArg (Answer.plain ∘ outcomeOf Value.number) houtcome)
  | flush => exact h.sameAnswer rfl
  | read buffer =>
    obtain ⟨houtcome, hbuffer, hring⟩ := h.read buffer
    exact hring.sameAnswer (by rw [houtcome, hbuffer])
  | readExact buffer =>
    obtain ⟨houtcome, hbuffer, hring⟩ := h.readExact buffer
    exact hring.sameAnswer (by rw [houtcome, hbuffer])
  | readVectored buffers =>
    obtain ⟨houtcome, hbuffers, hring⟩ := h.readVectored buffers
    exact hring.sameAnswer (by rw [houtcome, hbuffers])
  | readToEnd =>
    obtain ⟨houtcome, hring⟩ := h.readToEnd
    exact hring.sameAnswer (congrArg (Answer.plain ∘ streamOutcome Value.bytes) houtcome)
  | readToText =>
    obtain ⟨houtcome, hring⟩ := h.readToText
    exact hring.sameAnswer (congrArg (Answer.plain ∘ streamOutcome Value.text) houtcome)

end Alike

end CyclicQueue.ByteRing
