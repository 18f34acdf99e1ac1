import CyclicQueue.ByteRing.Guarded.Look
import CyclicQueue.Proofs.ByteRing.Guarded.Basic
import CyclicQueue.Proofs.ByteRing.Walking

/-!
# No look into a ring is stopped

A needle is split inside itself, a search ends inside the ring, and the pieces of two rings of one
length are split inside each other. What a walk has left, and what a search has counted, is never
more than the ring holds.
-/

namespace CyclicQueue.ByteRing

/-- No step makes a walk longer. -/
theorem Walk.size_step_le (walk : Walk) (side : End) : (walk.step side).2.size ≤ walk.size := by
  rw [Walk.size_eq, Walk.size_eq, (walk.step_eq side).2]
  cases side with
  | front => simp [End.take]
  | back => simp [End.take]

namespace Guarded

open Machine

variable {ring : ByteRing}

/-! ## Needles -/

theorem matchesAt_eq (h : ring.Stored) {offset : Nat} {needle : List UInt8}
    (hend : offset + needle.length ≤ ring.len) :
    matchesAt ring offset needle = .ok (ring.matchesAt offset needle) := by
  have hhead := length_head_runs offset needle.length h.valid.size_pos
  rw [matchesAt, runs_eq h hend, ok_bind, splitAt_eq (by omega)]
  rfl

theorem startsWith_eq (h : ring.Stored) (bytes : List UInt8) :
    startsWith ring bytes = .ok (ring.startsWith bytes) := by
  rw [startsWith, ByteRing.startsWith]
  cases hguard : !bytes.isEmpty && decide (bytes.length ≤ ring.len) with
  | false => rfl
  | true =>
    have hlen : bytes.length ≤ ring.len := of_decide_eq_true (Bool.and_eq_true_iff.1 hguard).2
    rw [if_pos rfl, matchesAt_eq h (by omega), Bool.true_and]

theorem endsWith_eq (h : ring.Stored) (bytes : List UInt8) :
    endsWith ring bytes = .ok (ring.endsWith bytes) := by
  rw [endsWith, ByteRing.endsWith]
  cases hguard : !bytes.isEmpty && decide (bytes.length ≤ ring.len) with
  | false => rfl
  | true =>
    have hlen : bytes.length ≤ ring.len := of_decide_eq_true (Bool.and_eq_true_iff.1 hguard).2
    rw [if_pos rfl, sub_eq hlen, ok_bind, matchesAt_eq h (by omega), Bool.true_and]

theorem equalsBytes_eq (h : ring.Stored) (bytes : List UInt8) :
    equalsBytes ring bytes = .ok (ring.equalsBytes bytes) := by
  rw [equalsBytes, ByteRing.equalsBytes]
  cases bytes.isEmpty && ring.isEmpty with
  | false => exact startsWith_eq h bytes
  | true => rfl

theorem firstMatch_eq (h : ring.Stored) {needle : List UInt8} {offsets : List Nat}
    (hends : ∀ offset ∈ offsets, offset + needle.length ≤ ring.len) :
    firstMatch ring needle offsets =
      .ok (offsets.find? fun offset => ring.matchesAt offset needle) := by
  induction offsets with
  | nil => rfl
  | cons offset offsets ih =>
    rw [firstMatch, matchesAt_eq h (hends offset List.mem_cons_self), ok_bind, List.find?_cons]
    cases ring.matchesAt offset needle with
    | false => exact ih fun later hlater => hends later (List.mem_cons_of_mem _ hlater)
    | true => rfl

/-- Every offset that is tried leaves room for the needle, also where the start lies behind all of
them. -/
theorem search_eq (h : ring.Stored) (needle : List UInt8) (start : Nat) :
    search ring needle start = .ok (ring.search needle start) := by
  rw [search, ByteRing.search]
  by_cases hnone : (needle.isEmpty || decide (ring.len < needle.length)) = true
  · rw [if_pos hnone, if_pos hnone]
    rfl
  · have hlen : needle.length ≤ ring.len := by
      simp only [Bool.or_eq_true, decide_eq_true_eq, not_or, Nat.not_lt] at hnone
      exact hnone.2
    rw [if_neg hnone, if_neg hnone, sub_eq hlen, ok_bind, firstMatch_eq h]
    intro offset hoffset
    have hrange := List.mem_range'_1.1 hoffset
    omega

theorem findFrom_eq (h : ring.Stored) (needle : List UInt8) (start : Nat) :
    findFrom ring needle start = .ok (ring.findFrom needle start) := by
  rw [findFrom, ByteRing.findFrom]
  by_cases hstart : ring.len ≤ start
  · rw [if_pos hstart, if_pos hstart]
    rfl
  · rw [if_neg hstart, if_neg hstart, search_eq h]
    rfl

/-- There are never more matches counted than bytes passed. -/
theorem countFrom_eq (h : ring.Stored) (needle : List UInt8) {count start : Nat}
    (hcount : count ≤ start) :
    countFrom ring needle count start = .ok (count + ring.countFrom needle start) := by
  have hword := wordLimit_eq
  have hsize := h.size_le
  have hlen := h.valid.len_lt
  fun_induction ByteRing.countFrom ring needle start generalizing count with
  | case1 start hnone =>
    rw [countFrom, search_eq h, ok_bind, hnone]
    rfl
  | case2 start offset hfound ih =>
    obtain ⟨hne, hstart, hend⟩ := search_spec hfound
    have hpos := List.length_pos_iff.2 hne
    rw [countFrom, search_eq h, ok_bind, hfound]
    simp only
    rw [add_eq (by omega), ok_bind, add_eq (by omega), ok_bind, if_pos (by omega), ih (by omega),
      Nat.add_right_comm, Nat.add_assoc]

theorem occurrences_eq (h : ring.Stored) (needle : List UInt8) :
    occurrences ring needle = .ok (ring.occurrences needle) := by
  rw [occurrences, ByteRing.occurrences]
  by_cases hnil : needle.isEmpty = true
  · rw [if_pos hnil, if_pos hnil]
    rfl
  · rw [if_neg hnil, if_neg hnil, countFrom_eq h needle (Nat.le_refl 0), Nat.zero_add]
    rfl

theorem count_eq (h : ring.Stored) (byte : UInt8) : count ring byte = .ok (ring.count byte) := by
  rw [count, occurrences_eq h]
  rfl

/-! ## Two rings -/

/-- Pieces of the same bytes in all are split inside each other. -/
theorem agree_eq {a b : Runs}
    (hlen : a.head.length + a.tail.length = b.head.length + b.tail.length) :
    agree a b = .ok (ByteRing.agree a b) := by
  rw [agree, ByteRing.agree]
  by_cases hsame : a.head.length = b.head.length
  · rw [if_pos hsame, if_pos hsame]
    rfl
  · rw [if_neg hsame, if_neg hsame]
    by_cases hless : a.head.length < b.head.length
    · rw [if_pos hless, if_pos hless]
      dsimp only
      rw [sub_eq (by omega), ok_bind, splitAt_eq (by omega), ok_bind, splitAt_eq (by omega)]
      rfl
    · rw [if_neg hless, if_neg hless]
      dsimp only
      rw [sub_eq (by omega), ok_bind, splitAt_eq (by omega), ok_bind, splitAt_eq (by omega)]
      rfl

theorem equal_eq {a b : ByteRing} (ha : a.Stored) (hb : b.Stored) :
    equal a b = .ok (a == b) := by
  change equal a b = .ok (a.len == b.len && ByteRing.agree a.slices b.slices)
  rw [equal]
  cases hlen : a.len == b.len with
  | false => rfl
  | true =>
    have hpieces := length_slices ha
    have hpieces' := length_slices hb
    have hsame := beq_iff_eq.1 hlen
    rw [if_pos rfl, slices_eq ha, ok_bind, slices_eq hb, ok_bind, agree_eq (by omega),
      Bool.true_and]

/-! ## Walks -/

theorem walk_eq (h : ring.Stored) : walk ring = .ok ring.walk := by
  rw [walk, slices_eq h]
  rfl

theorem walkSize_eq {walk : Walk} (h : walk.size < wordLimit) : walkSize walk = .ok walk.size :=
  add_eq h

theorem size_walk_lt (h : ring.Stored) : ring.walk.size < wordLimit := by
  have hword := wordLimit_eq
  have hsize := h.size_le
  have hlen := h.valid.len_lt
  have hpieces : ring.walk.size = ring.len := length_slices h
  omega

/-- What is met by taking from one end until nothing is left. -/
def gathered (walk : Walk) : End → List UInt8
  | .front => walk.collect
  | .back => walk.collectBack

theorem gathered_eq (walk : Walk) (side : End) :
    gathered walk side =
      match walk.step side with
      | (none, _) => []
      | (some byte, rest) => byte :: gathered rest side := by
  cases side with
  | front =>
    rw [gathered, Walk.collect, Walk.step]
    split
    · next hnext => rw [hnext]
    · next hnext =>
      rw [hnext]
      rfl
  | back =>
    rw [gathered, Walk.collectBack, Walk.step]
    split
    · next hnext => rw [hnext]
    · next hnext =>
      rw [hnext]
      rfl

theorem gather_eq {walk : Walk} (h : walk.size < wordLimit) (side : End) :
    gather side walk = .ok (gathered walk side) := by
  induction hn : walk.size using Nat.strongRecOn generalizing walk with
  | _ n ih =>
    have hle := walk.size_step_le side
    rw [gather, gathered_eq]
    split
    · next hstep =>
      rw [hstep]
      rfl
    · next byte rest hstep =>
      have hless : rest.size < walk.size := by
        cases side with
        | front => exact Walk.size_next_lt hstep
        | back => exact Walk.size_nextBack_lt hstep
      rw [walkSize_eq (by omega), ok_bind, ih rest.size (by omega) (by omega) rfl, hstep]
      rfl

theorem collect_eq (h : ring.Stored) : collect ring = .ok ring.walk.collect := by
  rw [collect, walk_eq h, ok_bind, gather_eq (size_walk_lt h)]
  rfl

theorem collectBack_eq (h : ring.Stored) : collectBack ring = .ok ring.walk.collectBack := by
  rw [collectBack, walk_eq h, ok_bind, gather_eq (size_walk_lt h)]
  rfl

theorem follow_eq {walk : Walk} (h : walk.size < wordLimit) (sides : List End) :
    follow walk sides = .ok (walk.follow sides) := by
  induction sides generalizing walk with
  | nil => rfl
  | cons side sides ih =>
    have hrest := Nat.lt_of_le_of_lt (walk.size_step_le side) h
    rw [follow, Walk.follow]
    generalize walk.step side = stepped at hrest ⊢
    obtain ⟨byte, rest⟩ := stepped
    simp only [walkSize_eq hrest, ok_bind, ih hrest]
    rfl

/-! ## Rendering and reading back -/

theorem getElem?_digits {value : Nat} (h : value < 16) :
    digits[value]? = some (Text.Hex.digit value) := by
  revert value
  decide

theorem item_digits {value : Nat} (h : value < 16) :
    item digits value = .ok (Text.Hex.digit value) :=
  item_eq (getElem?_digits h)

theorem appendHex_eq (text : String) (bytes : List UInt8) :
    appendHex text bytes = .ok (Text.Hex.append text bytes) := by
  induction bytes generalizing text with
  | nil => rfl
  | cons byte bytes ih =>
    have hbyte := byte.toNat_lt
    rw [appendHex, item_digits (by omega), ok_bind, item_digits (by omega), ok_bind, ih]
    rfl

theorem hexOf_eq (h : ring.Stored) {offset length : Nat} (hend : offset + length ≤ ring.len) :
    hexOf ring offset length = .ok (ring.hexOf offset length) := by
  have hword := wordLimit_eq
  have hsize := h.size_le
  have hlen := h.valid.len_lt
  rw [hexOf, runs_eq h hend, ok_bind, mul_eq (by omega), ok_bind, appendHex_eq, ok_bind,
    appendHex_eq]
  rfl

theorem hex_eq (h : ring.Stored) : hex ring = .ok ring.hex :=
  hexOf_eq h (Nat.le_of_eq (Nat.zero_add _))

theorem hexRange_eq (h : ring.Stored) (offset length : Nat) :
    hexRange ring offset length = .ok (ring.hexRange offset length) := by
  have hsize := h.size_le
  have hlen := h.valid.len_lt
  rw [hexRange, ByteRing.hexRange, checkRange_eq (by omega)]
  cases hrange : CyclicQueue.checkRange ring.len offset length with
  | error fault => rfl
  | ok _ =>
    simp only [hexOf_eq h (checkRange_eq_ok_iff.1 hrange).2]
    rfl

theorem display_eq (h : ring.Stored) : display ring = .ok ring.display := by
  rw [display, collect_eq h]
  rfl

theorem treeWith_eq (h : ring.Stored) (quote : List UInt8 → String) :
    treeWith quote ring = .ok (ring.treeWith quote) := by
  rw [treeWith, toList_eq h, ok_bind, capacity_eq h]
  rfl

theorem encode_eq (h : ring.Stored) {Rest Failure : Type} (codec : Codec Rest Failure) :
    encode codec ring = .ok (codec.encode ring) := by
  rw [encode, toList_eq h, ok_bind, capacity_eq h]
  rfl

theorem hashFeeds_eq (h : ring.Stored) : hashFeeds ring = .ok ring.hashFeeds := by
  rw [hashFeeds, collect_eq h]
  rfl

theorem decode_eq {memory : Memory} (hmemory : memory.limit ≤ blockLimit) {Rest Failure : Type}
    {codec : Codec Rest Failure} {text : String}
    (hdata : ∀ fields rest, codec.read text = .ok (fields, rest) →
      fields.2.length ≤ blockLimit) :
    decode codec memory text = .ok (codec.decode memory text) := by
  unfold decode Codec.decode
  cases hfields : codec.read text with
  | error failure => rfl
  | ok read =>
    obtain ⟨⟨capacity, data⟩, rest⟩ := read
    simp only [ofBytesWithCapacity_eq hmemory (hdata _ _ hfields), ok_bind]
    cases ByteRing.ofBytesWithCapacity memory data capacity with
    | error fault => rfl
    | ok ring => cases codec.finish rest <;> rfl

end Guarded

end CyclicQueue.ByteRing
