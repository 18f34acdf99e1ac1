import CyclicQueue.Proofs.ByteRing.Guarded.Session
import CyclicQueue.Trial.Run

/-!
# No trial fails

Before every action the list stands for the contents of the ring. Then the ring refuses an action
exactly where the check after it expects that, every cut lies inside the list it is made in, and
the list stands for the contents again.
-/

namespace CyclicQueue.Trial

open ByteRing (isFull isEmpty)
open Machine (ok_bind)

variable {capacity : Nat} {ring : ByteRing} {held : List UInt8} {memory : Memory}

theorem require_eq {condition : Bool} (disagreement : Disagreement) (h : condition = true) :
    require condition disagreement = .ok () :=
  if_pos h

theorem require_beq {α : Type} [BEq α] [LawfulBEq α] {a b : α} (disagreement : Disagreement)
    (h : a = b) : require (a == b) disagreement = .ok () :=
  require_eq disagreement (beq_iff_eq.2 h)

theorem cut_eq {α : Type} {items : List α} {offset length : Nat}
    (h : offset + length ≤ items.length) :
    cut items offset length = .ok ((items.drop offset).take length) :=
  if_pos h

/-- The ring and the list that actions lead to. -/
def after (memory : Memory) (capacity : Nat) (ring : ByteRing) (held : List UInt8) :
    List Action → Checked (ByteRing × List UInt8)
  | [] => return (ring, held)
  | action :: actions => do
    let (ring, held) ← act memory capacity ring held action
    after memory capacity ring held actions

/-! ## A ring and the list of its contents -/

/-- A valid ring of the given capacity and the list of its contents. -/
structure Coupled (capacity : Nat) (ring : ByteRing) (held : List UInt8) : Prop where
  valid : ring.Valid
  capacity_eq : ring.capacity = capacity
  toList_eq : ring.toList = held

/-- An action goes through and leaves a ring and the list of its contents. -/
def GoesOn (capacity : Nat) (result : Checked (ByteRing × List UInt8)) : Prop :=
  ∃ ring held, result = .ok (ring, held) ∧ Coupled capacity ring held

namespace Coupled

theorem length_eq (h : Coupled capacity ring held) : held.length = ring.len := by
  rw [← h.toList_eq, h.valid.length_toList]

theorem length_le (h : Coupled capacity ring held) : held.length ≤ capacity := by
  rw [h.length_eq, ← h.capacity_eq]
  exact h.valid.len_le

theorem free_eq (h : Coupled capacity ring held) : ring.free = capacity - held.length := by
  rw [ByteRing.free, h.capacity_eq, h.length_eq]

theorem free_check (h : Coupled capacity ring held) :
    (decide (held.length ≤ capacity) && ring.free == capacity - held.length) = true := by
  rw [h.free_eq, beq_self_eq_true, Bool.and_true]
  exact decide_eq_true h.length_le

theorem append (h : Coupled capacity ring held) {bytes : List UInt8}
    (hfit : bytes.length ≤ ring.free) : Coupled capacity (ring.append bytes) (held ++ bytes) where
  valid := h.valid.append hfit
  capacity_eq := by rw [ByteRing.capacity_append, h.capacity_eq]
  toList_eq := by rw [h.valid.toList_append hfit, h.toList_eq]

theorem advance (h : Coupled capacity ring held) {count : Nat} (hcount : count ≤ ring.len) :
    Coupled capacity (ring.advance count) (held.drop count) where
  valid := h.valid.advance hcount
  capacity_eq := by rw [ByteRing.capacity_advance, h.capacity_eq]
  toList_eq := by rw [h.valid.toList_advance hcount, h.toList_eq]

theorem clear (h : Coupled capacity ring held) : Coupled capacity ring.clear [] where
  valid := h.valid.clear
  capacity_eq := h.capacity_eq
  toList_eq := h.valid.toList_clear

/-- The state of the ring passes every check. -/
theorem checkState (h : Coupled capacity ring held) : checkState capacity ring held = .ok () := by
  have hcollect : ring.walk.collect = held := by
    rw [ByteRing.Walk.collect_eq, ByteRing.toList_walk, h.toList_eq]
  rw [Trial.checkState, require_eq _ h.valid.isConsistent, ok_bind,
    require_beq _ h.length_eq.symm, ok_bind, require_eq _ h.free_check, ok_bind,
    require_beq _ hcollect]

/-! ## Adding and removing -/

theorem push (h : Coupled capacity ring held) (byte : UInt8) :
    GoesOn capacity (act memory capacity ring held (.push byte)) := by
  have hlen := h.length_eq
  have hcapacity := h.capacity_eq
  cases hfull : ring.isFull with
  | true =>
    have heq : ring.len = ring.capacity := ByteRing.isFull_iff.1 hfull
    have hpush : ring.push byte = (.error .full, ring) := by rw [ByteRing.push, if_pos hfull]
    refine ⟨ring, held, ?_, h⟩
    simp only [act, hpush]
    rw [require_beq _ rfl, ok_bind, require_beq _ (by omega)]
    rfl
  | false =>
    have hne : ring.len ≠ ring.capacity := ByteRing.isFull_eq_false_iff.1 hfull
    have hle := h.valid.len_le
    refine ⟨ring.append [byte], held ++ [byte], ?_, h.append ?_⟩
    · simp only [act, ByteRing.push_eq_append h.valid hfull]
      rfl
    · rw [List.length_singleton, ByteRing.free]
      omega

/-- A range that is refused lies outside the bytes. -/
theorem outside_of_checkRange {size offset length : Nat} {fault : Fault}
    (h : checkRange size offset length = .error fault) :
    (∃ reason, fault = .badArgument reason) ∧
      ((offset != 0 && decide (size ≤ offset)) || decide (size < offset + length)) = true := by
  unfold checkRange at h
  split at h
  · next hoffset =>
    cases h
    exact ⟨⟨_, rfl⟩, by simp [hoffset]⟩
  · split at h
    · cases h
    · next hend =>
      cases h
      exact ⟨⟨_, rfl⟩, by simp [Nat.not_le.1 hend]⟩

theorem pushRange (h : Coupled capacity ring held) (bytes : List UInt8) (offset length : UInt8) :
    GoesOn capacity (act memory capacity ring held (.pushRange bytes offset length)) := by
  cases hrange : checkRange bytes.length offset.toNat length.toNat with
  | error fault =>
    obtain ⟨⟨reason, rfl⟩, houtside⟩ := outside_of_checkRange hrange
    refine ⟨ring, held, ?_, h⟩
    simp only [act, ByteRing.pushRange, hrange]
    rw [require_eq _ houtside]
    rfl
  | ok _ =>
    obtain ⟨-, hend⟩ := checkRange_eq_ok_iff.1 hrange
    rcases Nat.lt_or_ge ring.free length.toNat with hlack | hroom
    · have hne : length.toNat ≠ 0 := by omega
      refine ⟨ring, held, ?_, h⟩
      simp only [act, ByteRing.pushRange, hrange, if_neg hne, if_pos hlack]
      rw [require_beq _ rfl, ok_bind, require_eq _ h.free_check, ok_bind,
        require_eq _ (decide_eq_true hlack)]
      rfl
    · have hfit : ((bytes.drop offset.toNat).take length.toNat).length ≤ ring.free := by
        rw [List.length_take]
        omega
      refine ⟨_, _, ?_, h.append hfit⟩
      simp only [act, h.valid.pushRange_eq hrange hroom]
      rw [cut_eq hend]
      rfl

theorem pop (h : Coupled capacity ring held) :
    GoesOn capacity (act memory capacity ring held .pop) := by
  cases held with
  | nil =>
    have hzero : ring.len = 0 := h.valid.toList_eq_nil_iff.1 h.toList_eq
    refine ⟨ring, [], ?_, h⟩
    simp only [act, ByteRing.pop, isEmpty, hzero]
    rfl
  | cons byte rest =>
    have hfirst : value? (.ok byte : Except Fault UInt8) = (byte :: rest).head? := rfl
    refine ⟨ring.advance 1, rest, ?_, ?_⟩
    · simp only [act, h.valid.pop_eq, h.toList_eq]
      rw [require_beq _ hfirst]
      rfl
    · exact h.advance (by rw [← h.length_eq]; exact Nat.succ_pos _)

/-- A count that is refused is more than is held. -/
theorem length_lt_of_checkCount (h : Coupled capacity ring held) {count : Nat} {fault : Fault}
    (hcount : ring.checkCount count = .error fault) : held.length < count := by
  rw [h.length_eq]
  apply Nat.lt_of_not_le
  intro hheld
  rw [h.valid.checkCount_eq hheld] at hcount
  cases hcount

theorem take (h : Coupled capacity ring held) (count : UInt8) :
    GoesOn capacity (act memory capacity ring held (.take count)) := by
  cases hcount : ring.checkCount count.toNat with
  | error fault =>
    refine ⟨ring, held, ?_, h⟩
    simp only [act, ByteRing.take, hcount]
    rw [require_eq _ (decide_eq_true (h.length_lt_of_checkCount hcount))]
    rfl
  | ok _ =>
    have hheld := ByteRing.le_of_checkCount hcount
    have hlen := h.length_eq
    refine ⟨_, _, ?_, h.advance hheld⟩
    simp only [act, h.valid.take_eq hheld]
    rw [cut_eq (by omega), ok_bind, require_beq _ (by rw [h.toList_eq, List.drop_zero])]
    rfl

theorem discard (h : Coupled capacity ring held) (count : UInt8) :
    GoesOn capacity (act memory capacity ring held (.discard count)) := by
  cases hcount : ring.checkCount count.toNat with
  | error fault =>
    refine ⟨ring, held, ?_, h⟩
    simp only [act, ByteRing.discard, hcount]
    rw [require_eq _ (decide_eq_true (h.length_lt_of_checkCount hcount))]
    rfl
  | ok _ =>
    have hheld := ByteRing.le_of_checkCount hcount
    have hlen := h.length_eq
    refine ⟨_, _, ?_, h.advance hheld⟩
    simp only [act, h.valid.discard_eq hheld]
    rw [cut_eq (by omega)]
    rfl

/-! ## Looking and copying -/

theorem get (h : Coupled capacity ring held) (index : UInt8) :
    GoesOn capacity (act memory capacity ring held (.get index)) := by
  have hvalue : value? (ring.get index.toNat) = held[index.toNat]? := by
    rw [h.valid.get_eq, h.toList_eq, h.capacity_eq]
    have hle := h.length_le
    by_cases hcapacity : capacity ≤ index.toNat
    · rw [if_pos hcapacity, List.getElem?_eq_none (by omega)]
      rfl
    · rw [if_neg hcapacity]
      cases held[index.toNat]? <;> rfl
  refine ⟨ring, held, ?_, h⟩
  rw [act, require_beq _ hvalue]
  rfl

/-- Trying one position after the other meets what the ring meets. -/
theorem firstAt_eq (h : Coupled capacity ring held) {needle : List UInt8} {positions : List Nat}
    (hends : ∀ position ∈ positions, position + needle.length ≤ ring.len) :
    firstAt held needle positions =
      .ok (positions.find? fun position => ring.matchesAt position needle) := by
  induction positions with
  | nil => rfl
  | cons position positions ih =>
    have hend := hends position List.mem_cons_self
    have hlen := h.length_eq
    have hmatch := h.valid.matchesAt_iff hend
    rw [Bytes.occursAt_iff, h.toList_eq] at hmatch
    rw [firstAt, cut_eq (by omega), List.find?_cons]
    by_cases hwindow : (held.drop position).take needle.length = needle
    · rw [hmatch.2 hwindow]
      exact if_pos hwindow
    · have hno : ring.matchesAt position needle = false := by
        rw [← Bool.not_eq_true, hmatch]
        exact hwindow
      rw [hno]
      simp only [if_neg hwindow]
      exact ih fun later hlater => hends later (List.mem_cons_of_mem _ hlater)

theorem findIn_eq (h : Coupled capacity ring held) (needle : List UInt8) (start : Nat) :
    findIn held needle start = .ok (ring.search needle start) := by
  rw [findIn, ByteRing.search, h.length_eq]
  by_cases hnone : (needle.isEmpty || decide (ring.len < needle.length)) = true
  · rw [if_pos hnone, if_pos hnone]
  · have hlen : needle.length ≤ ring.len := by
      simp only [Bool.or_eq_true, decide_eq_true_eq, not_or, Nat.not_lt] at hnone
      exact hnone.2
    rw [if_neg hnone, if_neg hnone, h.firstAt_eq]
    intro position hposition
    have hrange := List.mem_range'_1.1 hposition
    omega

theorem find (h : Coupled capacity ring held) (needle : List UInt8) (start : UInt8) :
    GoesOn capacity (act memory capacity ring held (.find needle start)) := by
  have hlen := h.length_eq
  have hfind : ring.find needle = ring.search needle 0 := rfl
  refine ⟨ring, held, ?_, h⟩
  by_cases hstart : ring.len ≤ start.toNat
  · simp only [act, ByteRing.findFrom, if_pos hstart, h.findIn_eq]
    rw [require_eq _ (decide_eq_true (by omega)), ok_bind, ok_bind, require_beq _ hfind]
    rfl
  · simp only [act, ByteRing.findFrom, if_neg hstart, h.findIn_eq]
    rw [ok_bind, require_beq _ rfl, ok_bind, ok_bind, require_beq _ hfind]
    rfl

theorem countIn_eq (h : Coupled capacity ring held) (needle : List UInt8) (start : Nat) :
    countIn held needle start = .ok (ring.countFrom needle start) := by
  fun_induction ByteRing.countFrom ring needle start with
  | case1 start hnone =>
    rw [countIn]
    split
    · next hfound =>
      rw [h.findIn_eq] at hfound
      cases hfound
    · rfl
    · next hfound =>
      rw [h.findIn_eq, hnone] at hfound
      cases hfound
  | case2 start offset hsome ih =>
    rw [countIn]
    split
    · next hfound =>
      rw [h.findIn_eq] at hfound
      cases hfound
    · next hfound =>
      rw [h.findIn_eq, hsome] at hfound
      cases hfound
    · next hfound =>
      rw [h.findIn_eq, hsome] at hfound
      cases hfound
      rw [ih]
      rfl

theorem occurrences (h : Coupled capacity ring held) (needle : List UInt8) :
    GoesOn capacity (act memory capacity ring held (.occurrences needle)) := by
  refine ⟨ring, held, ?_, h⟩
  by_cases hnil : needle.isEmpty = true
  · simp only [act, ByteRing.occurrences, if_pos hnil]
    rfl
  · simp only [act, ByteRing.occurrences, if_neg hnil, h.countIn_eq]
    rw [Except.map, ok_bind, require_beq _ rfl]
    rfl

theorem startsWith (h : Coupled capacity ring held) (bytes : List UInt8) :
    GoesOn capacity (act memory capacity ring held (.startsWith bytes)) := by
  have heq : ring.startsWith bytes = (!bytes.isEmpty && bytes.isPrefixOf held) := by
    rw [Bool.eq_iff_iff, h.valid.startsWith_iff, h.toList_eq, Bool.and_eq_true, Bool.not_eq_true',
      List.isEmpty_eq_false_iff, List.isPrefixOf_iff_prefix]
  refine ⟨ring, held, ?_, h⟩
  rw [act, require_beq _ heq]
  rfl

theorem endsWith (h : Coupled capacity ring held) (bytes : List UInt8) :
    GoesOn capacity (act memory capacity ring held (.endsWith bytes)) := by
  have heq : ring.endsWith bytes = (!bytes.isEmpty && bytes.isSuffixOf held) := by
    rw [Bool.eq_iff_iff, h.valid.endsWith_iff, h.toList_eq, Bool.and_eq_true, Bool.not_eq_true',
      List.isEmpty_eq_false_iff, List.isSuffixOf_iff_suffix]
  refine ⟨ring, held, ?_, h⟩
  rw [act, require_beq _ heq]
  rfl

/-- What was written to a window is read from it. -/
theorem window_overwrite {target bytes : List UInt8} {start : Nat}
    (h : start + bytes.length ≤ target.length) :
    ((ByteRing.overwrite target start bytes).drop start).take bytes.length = bytes := by
  rw [ByteRing.overwrite_eq h, List.append_assoc, List.drop_left' (by rw [List.length_take]; omega),
    List.take_left]

theorem copyTo (h : Coupled capacity ring held) (offset length targetSize targetOffset : UInt8) :
    GoesOn capacity
      (act memory capacity ring held (.copyTo offset length targetSize targetOffset)) := by
  refine ⟨ring, held, ?_, h⟩
  simp only [act, h.valid.copyTo_eq, h.toList_eq]
  cases hrange : checkRange held.length offset.toNat length.toNat with
  | error fault => rfl
  | ok _ =>
    generalize List.replicate targetSize.toNat (0 : UInt8) = target
    cases hwindow : checkRange target.length targetOffset.toNat length.toNat with
    | error fault => rfl
    | ok _ =>
      obtain ⟨-, hend⟩ := checkRange_eq_ok_iff.1 hrange
      obtain ⟨-, hinside⟩ := checkRange_eq_ok_iff.1 hwindow
      have hcopied : ((held.drop offset.toNat).take length.toNat).length = length.toNat :=
        length_of_checkRange hrange
      simp only
      generalize hpart : (held.drop offset.toNat).take length.toNat = copied at hcopied
      have hwritten := window_overwrite (show targetOffset.toNat + copied.length ≤ target.length by
        rw [hcopied]; exact hinside)
      rw [hcopied] at hwritten
      rw [cut_eq (by rw [ByteRing.length_overwrite]; exact hinside), ok_bind, cut_eq hend, ok_bind,
        hpart, hwritten, require_beq _ rfl]
      rfl

theorem copyRange (h : Coupled capacity ring held) (offset length extra : UInt8) :
    GoesOn capacity (act memory capacity ring held (.copyRange offset length extra)) := by
  refine ⟨ring, held, ?_, h⟩
  simp only [act, h.valid.copyRangeWithCapacity_eq, h.toList_eq]
  cases hplan : ByteRing.planned memory held offset.toNat length.toNat
      (max length.toNat 1 + extra.toNat) with
  | error fault => rfl
  | ok queue =>
    have hfits := (ByteRing.fits_of_planned hplan).1
    obtain ⟨hend, -, -, -, rfl⟩ := ByteRing.of_planned hplan
    obtain ⟨hcapacity, hlist⟩ := Fifo.mk.inj (ByteRing.fifo_fresh hfits)
    simp only [Except.map]
    rw [cut_eq hend, ok_bind, require_beq _ hlist, ok_bind, require_beq _ hcapacity]
    rfl

/-! ## Whole trials -/

theorem act (h : Coupled capacity ring held) (memory : Memory) (action : Action) :
    GoesOn capacity (act memory capacity ring held action) := by
  cases action with
  | push byte => exact h.push byte
  | pushRange bytes offset length => exact h.pushRange bytes offset length
  | pop => exact h.pop
  | take count => exact h.take count
  | discard count => exact h.discard count
  | get index => exact h.get index
  | find needle start => exact h.find needle start
  | occurrences needle => exact h.occurrences needle
  | startsWith bytes => exact h.startsWith bytes
  | endsWith bytes => exact h.endsWith bytes
  | copyTo offset length targetSize targetOffset =>
    exact h.copyTo offset length targetSize targetOffset
  | copyRange offset length extra => exact h.copyRange offset length extra
  | clear => exact ⟨ring.clear, [], rfl, h.clear⟩

/-- Every action of a trial goes through, and every check after it passes. -/
theorem actAll (h : Coupled capacity ring held) (memory : Memory) (actions : List Action) :
    actAll memory capacity ring held actions = .ok () := by
  induction actions generalizing ring held with
  | nil => rfl
  | cons action actions ih =>
    obtain ⟨left, rest, hact, hleft⟩ := h.act memory action
    rw [Trial.actAll, hact, ok_bind]
    simp only
    rw [hleft.checkState, ok_bind, ih hleft]

theorem after (h : Coupled capacity ring held) (memory : Memory) (actions : List Action) :
    GoesOn capacity (after memory capacity ring held actions) := by
  induction actions generalizing ring held with
  | nil => exact ⟨ring, held, rfl, h⟩
  | cons action actions ih =>
    obtain ⟨left, rest, hact, hleft⟩ := h.act memory action
    rw [Trial.after, hact, ok_bind]
    exact ih hleft

theorem stored (h : Coupled capacity ring held) (hblock : capacity + 1 ≤ Machine.blockLimit) :
    ring.Stored where
  valid := h.valid
  size_le := by
    rw [h.valid.size_eq, h.capacity_eq]
    exact hblock

/-- What a trial copies is small. -/
theorem stored_copy (h : Coupled capacity ring held) {offset length extra : UInt8}
    {copy : ByteRing}
    (hcopy : ring.copyRangeWithCapacity memory offset.toNat length.toNat
      (max length.toNat 1 + extra.toNat) = .ok copy) : copy.Stored := by
  have hlength := length.toNat_lt
  have hextra := extra.toNat_lt
  have hlimit : 1024 ≤ Machine.blockLimit := by decide
  exact h.valid.stored_copy (by omega) hcopy

end Coupled

/-- A ring that is made for a trial is empty. -/
theorem coupled_of_withCapacity (hmade : ByteRing.withCapacity memory capacity = .ok ring) :
    Coupled capacity ring [] := by
  obtain ⟨hpos, -, rfl⟩ := ByteRing.blank_of_withCapacity hmade
  exact ⟨ByteRing.valid_blank hpos, ByteRing.capacity_blank capacity, ByteRing.toList_blank hpos⟩

/-- No trial fails whose storage the memory grants. Whatever its actions were so far, the ring that
they lead to holds what the list says, and no request to it or to a copy that an action makes of it
is stopped. -/
theorem trials_pass (plan : Plan) (hmemory : plan.capacity.toNat + 1 ≤ memory.limit) :
    plan.run memory = .ok () ∧
      ∀ ring, ByteRing.withCapacity memory plan.capacity.toNat = .ok ring →
        ∀ done left, plan.actions = done ++ left →
          ∃ met held, after memory plan.capacity.toNat ring [] done = .ok (met, held) ∧
            met.toList = held ∧ met.Unstopped memory ∧
              ∀ (offset length extra : UInt8) (copy : ByteRing),
                met.copyRangeWithCapacity memory offset.toNat length.toNat
                  (max length.toNat 1 + extra.toNat) = .ok copy → copy.Unstopped memory := by
  constructor
  · unfold Plan.run
    cases hmade : ByteRing.withCapacity memory plan.capacity.toNat with
    | error fault =>
      rw [ByteRing.withCapacity_eq, Memory.reserve_eq_ok_iff.2 hmemory] at hmade
      split at hmade
      · next hzero => exact require_beq _ (UInt8.toNat_inj.1 hzero)
      · cases hmade
    | ok ring => exact (coupled_of_withCapacity hmade).actAll memory plan.actions
  · intro ring hmade done left hactions
    have hblock : plan.capacity.toNat + 1 ≤ Machine.blockLimit := by
      have hbyte := plan.capacity.toNat_lt
      have hlimit : 256 ≤ Machine.blockLimit := by decide
      omega
    obtain ⟨met, held, hafter, hmet⟩ := (coupled_of_withCapacity hmade).after memory done
    refine ⟨met, held, hafter, hmet.toList_eq, (hmet.stored hblock).unstopped memory, ?_⟩
    intro offset length extra copy hcopy
    exact (hmet.stored_copy hcopy).unstopped memory

/-- A trial in which the ring goes round the end of its storage and refuses three actions. -/
def roundTrial : Plan where
  capacity := 3
  actions :=
    [.pushRange [1, 2, 3, 4] 1 3, .push 9, .take 2, .pushRange [5, 5] 0 2, .pushRange [6] 2 0,
      .occurrences [5], .find [5, 5] 1, .copyTo 1 2 4 2, .copyRange 0 3 0, .endsWith [4, 5, 5],
      .discard 4, .pop]

theorem trials_pass_round :
    roundTrial.run .ordinary = .ok () ∧
      after .ordinary 3 (ByteRing.blank 3) [] (roundTrial.actions.take 4) =
        .ok (⟨#[5, 3, 4, 5], 2, 1, 3⟩, [4, 5, 5]) ∧
      ByteRing.Unstopped .ordinary ⟨#[5, 3, 4, 5], 2, 1, 3⟩ ∧
      ByteRing.Unstopped .ordinary ⟨#[4, 5, 5, 0], 0, 3, 3⟩ := by
  have hround : after .ordinary 3 (ByteRing.blank 3) [] (roundTrial.actions.take 4) =
      .ok (⟨#[5, 3, 4, 5], 2, 1, 3⟩, [4, 5, 5]) := rfl
  obtain ⟨hrun, hmet⟩ := trials_pass roundTrial (show 3 + 1 ≤ Memory.ordinary.limit by decide)
  obtain ⟨met, held, hafter, -, hunstopped, hcopies⟩ :=
    hmet (ByteRing.blank 3) rfl (roundTrial.actions.take 4) (roundTrial.actions.drop 4) rfl
  cases hround.symm.trans hafter
  exact ⟨hrun, hround, hunstopped, hcopies 0 3 0 _ rfl⟩

end CyclicQueue.Trial
