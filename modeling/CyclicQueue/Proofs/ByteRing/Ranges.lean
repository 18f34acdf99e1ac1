import CyclicQueue.Proofs.ByteRing.Guarded.Basic
import CyclicQueue.Proofs.ByteRing.Rendering
import CyclicQueue.Proofs.Refusal

/-!
# Ranges of the contents

One rule says which ranges there are, and everything that hands out a range goes by it: a list, a
block with room to spare, a ring of its own, hexadecimal digits and a window of a target all hold
the same bytes, or are all refused for the same reason.
-/

namespace CyclicQueue

/-! ## Which ranges there are -/

/-- `offset` and `length` name a range of a sequence of `size` elements. -/
def InRange (size offset length : Nat) : Prop :=
  (offset = 0 ∨ offset < size) ∧ offset + length ≤ size

/-- The reason why `offset` and `length` name no range. The offset comes first. -/
inductive RangeFault (size offset length : Nat) : Fault → Prop
  | offset (hne : offset ≠ 0) (hbehind : size ≤ offset) :
    RangeFault size offset length (.badArgument .offsetOutOfRange)
  | stop (hinside : offset = 0 ∨ offset < size) (hbehind : size < offset + length) :
    RangeFault size offset length (.badArgument .endOutOfRange)

variable {size offset length : Nat}

theorem checkRange_ok_iff_inRange :
    checkRange size offset length = .ok () ↔ InRange size offset length :=
  checkRange_eq_ok_iff

theorem checkRange_error_iff {fault : Fault} :
    checkRange size offset length = .error fault ↔ RangeFault size offset length fault := by
  unfold checkRange
  constructor
  · intro hrefused
    split at hrefused
    · next hoffset =>
      cases hrefused
      exact .offset hoffset.1 hoffset.2
    · split at hrefused
      · cases hrefused
      · cases hrefused
        exact .stop (by omega) (by omega)
  · rintro (⟨hne, hbehind⟩ | ⟨hinside, hbehind⟩)
    · rw [if_pos ⟨hne, hbehind⟩]
    · rw [if_neg (by omega), if_neg (by omega)]

namespace ByteRing

variable {ring : ByteRing} {memory : Memory}

/-! ## Single bytes -/

/-- The reason why the byte at `index` is not handed out. -/
inductive IndexFault (capacity held index : Nat) : Fault → Prop
  | outside (habove : capacity ≤ index) :
    IndexFault capacity held index (.badArgument .indexAboveCapacity)
  | spare (hbehind : held ≤ index) (hbelow : index < capacity) :
    IndexFault capacity held index (.tooSmall (index + 1) held)

/-- When a single byte is handed out, and why not. -/
structure Gets (ring : ByteRing) (index : Nat) : Prop where
  isOk_iff : (ring.get index).isOk = true ↔ index < ring.toList.length
  ok_iff : ∀ byte, ring.get index = .ok byte ↔ ring.toList[index]? = some byte
  error_iff : ∀ fault, ring.get index = .error fault ↔
    IndexFault ring.capacity ring.toList.length index fault

theorem Valid.get_of_lt (h : ring.Valid) {index : Nat} (hheld : index < ring.len) :
    ∃ byte, ring.toList[index]? = some byte ∧ ring.get index = .ok byte := by
  have hle := h.len_le
  have hread := h.getD_slot hheld
  refine ⟨_, hread, ?_⟩
  rw [h.get_eq, if_neg (by omega), hread]

theorem get_of_le {index : Nat} (hbehind : ring.len ≤ index) :
    ∃ fault, ring.get index = .error fault ∧
      ∀ fault', IndexFault ring.capacity ring.len index fault' ↔ fault' = fault := by
  rcases Nat.lt_or_ge index ring.capacity with hbelow | habove
  · refine ⟨.tooSmall (index + 1) ring.len, ?_, ?_⟩
    · rw [get, if_neg (Nat.not_le.2 hbelow), if_pos hbehind]
    · intro fault'
      constructor
      · rintro (habove | _)
        · omega
        · rfl
      · rintro rfl
        exact .spare hbehind hbelow
  · refine ⟨.badArgument .indexAboveCapacity, ?_, ?_⟩
    · rw [get, if_pos habove]
    · intro fault'
      constructor
      · rintro (_ | ⟨_, hbelow⟩)
        · rfl
        · omega
      · rintro rfl
        exact .outside habove

theorem Valid.gets (h : ring.Valid) (index : Nat) : ring.Gets index := by
  have hlen := h.length_toList
  rcases Nat.lt_or_ge index ring.len with hheld | hbehind
  · obtain ⟨byte, hread, hget⟩ := h.get_of_lt hheld
    have hle := h.len_le
    refine ⟨?_, ?_, ?_⟩
    · rw [hget, hlen]
      exact iff_of_true rfl hheld
    · intro byte'
      rw [hget, hread, Except.ok.injEq, Option.some.injEq]
    · intro fault
      rw [hget, hlen]
      refine iff_of_false (by rintro ⟨⟩) ?_
      rintro (habove | ⟨hbehind, _⟩)
      · omega
      · omega
  · obtain ⟨fault, hget, hfault⟩ := get_of_le hbehind
    refine ⟨?_, ?_, ?_⟩
    · rw [hget, hlen]
      exact iff_of_false (by rintro ⟨⟩) (Nat.not_lt.2 hbehind)
    · intro byte
      rw [hget, List.getElem?_eq_none (hlen ▸ hbehind)]
      exact iff_of_false (by rintro ⟨⟩) (by rintro ⟨⟩)
    · intro fault'
      rw [hget, hlen, hfault, Except.error.injEq]
      exact eq_comm

/-! ## Exporters -/

/-- The memory grants the storage of a ring that holds all of the contents, and so whatever a range
of them takes. That is one byte more than there are contents, unless there are none: a copy of the
empty range still has a capacity of one byte, and a spare slot beside it. -/
def Affords (memory : Memory) (ring : ByteRing) : Prop :=
  memory.reserve (max ring.toList.length 1 + 1) = .ok ()

theorem Affords.reserve (h : Affords memory ring) {size : Nat}
    (hsize : size ≤ max ring.toList.length 1 + 1) : memory.reserve size = .ok () :=
  Memory.reserve_mono hsize h

/-- All exporters of a range go by one verdict, and where it is favourable all of them hand out
`bytes`. -/
structure Exports (memory : Memory) (ring : ByteRing) (offset length : Nat)
    (verdict : Except Fault Unit) (bytes : List UInt8) : Prop where
  exportRange : ring.exportRange memory offset length = verdict.map fun _ => bytes
  exportReserving : ∀ capacity, length ≤ capacity → memory.reserve capacity = .ok () →
    ring.exportReserving memory offset length capacity = verdict.map fun _ => bytes
  copyRange : (ring.copyRange memory offset length).map fifo =
    verdict.map fun _ => ⟨max length 1, bytes⟩
  hexRange : (ring.hexRange offset length).map String.toList =
    verdict.map fun _ => Text.Hex.encode bytes
  copyTo : ∀ target, length ≤ target.length → ring.copyTo offset length target 0 =
    (verdict, if verdict.isOk then bytes ++ target.drop length else target)
  /-- Nor does a sum that is no word change the verdict. -/
  inWords : ring.storage.size ≤ Machine.blockLimit →
    Guarded.checkRange ring.len offset length = verdict

/-- The bytes that a range of the contents names. -/
def window (ring : ByteRing) (offset length : Nat) : List UInt8 :=
  (ring.toList.drop offset).take length

theorem length_window (hrange : InRange ring.toList.length offset length) :
    (ring.window offset length).length = length :=
  length_of_checkRange (checkRange_ok_iff_inRange.2 hrange)

theorem Valid.window_get (h : ring.Valid) (hrange : InRange ring.toList.length offset length)
    {i : Nat} (hi : i < length) :
    ∃ byte, (ring.window offset length)[i]? = some byte ∧ ring.get (offset + i) = .ok byte := by
  have hend := hrange.2
  have hlen := h.length_toList
  have hheld : offset + i < ring.len := by omega
  obtain ⟨byte, hread, hget⟩ := h.get_of_lt hheld
  refine ⟨byte, ?_, hget⟩
  rw [window, List.getElem?_take, if_pos hi, List.getElem?_drop, hread]

theorem Valid.exportReserving_verdict (h : ring.Valid) {capacity : Nat} (hfit : length ≤ capacity)
    (hgranted : InRange ring.toList.length offset length → memory.reserve capacity = .ok ()) :
    ring.exportReserving memory offset length capacity =
      (checkRange ring.toList.length offset length).map fun _ => ring.window offset length := by
  rw [h.exportReserving_eq]
  cases hrange : checkRange ring.toList.length offset length with
  | error fault => rfl
  | ok _ =>
    rw [hgranted (checkRange_ok_iff_inRange.1 hrange)]
    simp only [if_neg (Nat.not_lt.2 hfit)]
    rfl

theorem fits_window (hrange : InRange ring.toList.length offset length) :
    Fifo.Fits ⟨max length 1, ring.window offset length⟩ := by
  refine ⟨Nat.le_max_right .., ?_⟩
  rw [Fifo.Bounded, length_window hrange]
  exact Nat.le_max_left ..

/-- Of the checks that a copy makes only the one of the memory is left. -/
theorem Valid.copyRange_of_inRange (h : ring.Valid)
    (hrange : InRange ring.toList.length offset length) (memory : Memory) :
    ring.copyRange memory offset length =
      (memory.reserve (max length 1 + 1)).map fun _ =>
        fresh ⟨max length 1, ring.window offset length⟩ := by
  rw [copyRange, h.copyRangeWithCapacity_eq, planned, checkRange_ok_iff_inRange.2 hrange]
  simp only
  rw [if_neg (by omega), if_neg (by omega)]
  cases memory.reserve (max length 1 + 1) with
  | error fault => rfl
  | ok _ => rfl

theorem Valid.copyRange_verdict (h : ring.Valid) (hmemory : Affords memory ring) :
    (ring.copyRange memory offset length).map fifo =
      (checkRange ring.toList.length offset length).map fun _ =>
        ⟨max length 1, ring.window offset length⟩ := by
  cases hrange : checkRange ring.toList.length offset length with
  | error fault =>
    rw [copyRange, h.copyRangeWithCapacity_eq, planned, hrange]
    rfl
  | ok _ =>
    have hin := checkRange_ok_iff_inRange.1 hrange
    have hend := hin.2
    -- the copy takes no more than a ring of all the contents
    have hgranted : memory.reserve (max length 1 + 1) = .ok () := hmemory.reserve (by omega)
    rw [h.copyRange_of_inRange hin, hgranted]
    exact congrArg Except.ok (fifo_fresh (fits_window hin))

theorem Valid.hexRange_verdict (h : ring.Valid) :
    (ring.hexRange offset length).map String.toList =
      (checkRange ring.toList.length offset length).map fun _ =>
        Text.Hex.encode (ring.window offset length) := by
  rw [h.hexRange_eq]
  cases checkRange ring.toList.length offset length with
  | error fault => rfl
  | ok _ => exact congrArg Except.ok (Text.Hex.toList_append "" _)

/-! ## Windows of a target -/

section Target

variable {target : List UInt8} {targetOffset : Nat}

/-- The source is looked at before the target. -/
theorem Valid.copyTo_fst (h : ring.Valid) :
    (ring.copyTo offset length target targetOffset).1 =
      checkRange ring.toList.length offset length >>= fun _ =>
        checkRange target.length targetOffset length := by
  rw [h.copyTo_eq]
  cases checkRange ring.toList.length offset length with
  | error fault => rfl
  | ok _ =>
    cases checkRange target.length targetOffset length with
    | error fault => rfl
    | ok _ => rfl

theorem Valid.copyTo_ok_iff (h : ring.Valid) :
    (ring.copyTo offset length target targetOffset).1 = .ok () ↔
      InRange ring.toList.length offset length ∧ InRange target.length targetOffset length := by
  rw [h.copyTo_fst, ← checkRange_ok_iff_inRange, ← checkRange_ok_iff_inRange]
  cases checkRange ring.toList.length offset length with
  | error fault => exact iff_of_false (by rintro ⟨⟩) (by rintro ⟨⟨⟩, _⟩)
  | ok _ => exact (and_iff_right rfl).symm

theorem Valid.copyTo_error_iff (h : ring.Valid) {fault : Fault} :
    (ring.copyTo offset length target targetOffset).1 = .error fault ↔
      RangeFault ring.toList.length offset length fault ∨
        InRange ring.toList.length offset length ∧
          RangeFault target.length targetOffset length fault := by
  rw [h.copyTo_fst, ← checkRange_error_iff, ← checkRange_error_iff, ← checkRange_ok_iff_inRange]
  cases checkRange ring.toList.length offset length with
  | error fault' => exact (or_iff_left (by rintro ⟨⟨⟩, _⟩)).symm
  | ok _ =>
    rw [or_iff_right (by rintro ⟨⟩), and_iff_right rfl]
    exact Iff.rfl

theorem Valid.copyTo_of_inRange (h : ring.Valid)
    (hsource : InRange ring.toList.length offset length)
    (htarget : InRange target.length targetOffset length) :
    ring.copyTo offset length target targetOffset =
      (.ok (), target.take targetOffset ++ ring.window offset length ++
        target.drop (targetOffset + length)) := by
  have hlength := length_window hsource
  have hwritten : overwrite target targetOffset (ring.window offset length) =
      target.take targetOffset ++ ring.window offset length ++
        target.drop (targetOffset + length) := by
    rw [overwrite_eq (hlength.symm ▸ htarget.2), hlength]
  rw [h.copyTo_eq, checkRange_ok_iff_inRange.2 hsource, checkRange_ok_iff_inRange.2 htarget]
  exact Prod.ext rfl hwritten

theorem Valid.copyTo_outside (h : ring.Valid) {place : Nat}
    (hplace : place < targetOffset ∨ targetOffset + length ≤ place) :
    (ring.copyTo offset length target targetOffset).2[place]? = target[place]? := by
  cases hcopied : (ring.copyTo offset length target targetOffset).1 with
  | error fault => rw [copyTo_of_error hcopied]
  | ok _ =>
    obtain ⟨hsource, htarget⟩ := h.copyTo_ok_iff.1 hcopied
    have hend := htarget.2
    have hbefore : (target.take targetOffset).length = targetOffset :=
      List.length_take_of_le (by omega)
    have hupto : (target.take targetOffset ++ ring.window offset length).length =
        targetOffset + length := by
      rw [List.length_append, hbefore, length_window hsource]
    rw [h.copyTo_of_inRange hsource htarget]
    rcases hplace with hleft | hright
    · calc
        _ = (target.take targetOffset)[place]? := by
          rw [List.append_assoc, List.getElem?_append_left (by omega)]
        _ = target[place]? := List.getElem?_take_of_lt hleft
    · calc
        _ = (target.drop (targetOffset + length))[place - (targetOffset + length)]? := by
          rw [List.getElem?_append_right (by omega), hupto]
        _ = target[place]? := by
          rw [List.getElem?_drop, Nat.add_sub_cancel' hright]

theorem Valid.copyTo_inside (h : ring.Valid)
    (hcopied : (ring.copyTo offset length target targetOffset).1 = .ok ()) {i : Nat}
    (hi : i < length) :
    (ring.copyTo offset length target targetOffset).2[targetOffset + i]? =
      ring.toList[offset + i]? := by
  obtain ⟨hsource, htarget⟩ := h.copyTo_ok_iff.1 hcopied
  have hend := htarget.2
  have hlength := length_window hsource
  have hbefore : (target.take targetOffset).length = targetOffset :=
    List.length_take_of_le (by omega)
  rw [h.copyTo_of_inRange hsource htarget]
  calc
    _ = (ring.window offset length)[i]? := by
      rw [List.append_assoc, List.getElem?_append_right (by omega), hbefore,
        Nat.add_sub_cancel_left, List.getElem?_append_left (by omega)]
    _ = ring.toList[offset + i]? := by
      rw [window, List.getElem?_take_of_lt hi, List.getElem?_drop]

end Target

theorem Valid.copyTo_verdict (h : ring.Valid) {target : List UInt8}
    (hfit : length ≤ target.length) :
    ring.copyTo offset length target 0 =
      (checkRange ring.toList.length offset length,
        if (checkRange ring.toList.length offset length).isOk then
          ring.window offset length ++ target.drop length else target) := by
  cases hrange : checkRange ring.toList.length offset length with
  | error fault =>
    rw [h.copyTo_eq, hrange]
    rfl
  | ok _ =>
    have htarget : InRange target.length 0 length := ⟨.inl rfl, by omega⟩
    rw [h.copyTo_of_inRange (checkRange_ok_iff_inRange.1 hrange) htarget, List.take_zero,
      List.nil_append, Nat.zero_add]
    rfl

/-- A ring whose contents go round the end of the storage behind their second byte. -/
def bent : ByteRing :=
  ⟨#[30, 2, 3, 10, 20], 3, 1, 3⟩

theorem reachable_bent : bent.Reachable := by
  have hmake : (Recipe.ofBytesWithCapacity [1, 2, 3] 4).make .ordinary =
      .ok ⟨#[1, 2, 3, 0, 0], 0, 3, 3⟩ := rfl
  exact ((Reachable.made hmake).answered .ordinary (.update (.take 3))).answered .ordinary
    (.update (.pushSlice [10, 20, 30]))

theorem Valid.exports (h : ring.Valid) (hmemory : Affords memory ring) (offset length : Nat) :
    Exports memory ring offset length (checkRange ring.toList.length offset length)
      (ring.window offset length) where
  exportRange := by
    refine h.exportReserving_verdict (Nat.le_refl length) ?_
    intro hrange
    have hend := hrange.2
    exact hmemory.reserve (by omega)
  exportReserving capacity hfit hgranted := h.exportReserving_verdict hfit fun _ => hgranted
  copyRange := h.copyRange_verdict hmemory
  hexRange := h.hexRange_verdict
  copyTo target hfit := h.copyTo_verdict hfit
  inWords hsize := by
    have hlen := h.len_lt
    rw [Guarded.checkRange_eq (by omega), h.length_toList]

/-- All exporters accept the same ranges, refuse the others for the same reason and hand out the
same bytes, each of which is the byte that is handed out singly. -/
theorem exporters_share_verdict (h : ring.Reachable) :
    (∀ memory, Affords memory ring → ∀ offset length, ∃ verdict,
      (verdict = .ok () ↔ InRange ring.toList.length offset length) ∧
      (∀ fault, verdict = .error fault ↔ RangeFault ring.toList.length offset length fault) ∧
      Exports memory ring offset length verdict (ring.window offset length) ∧
      (verdict = .ok () → (ring.window offset length).length = length ∧
        ∀ i < length, ∃ byte,
          (ring.window offset length)[i]? = some byte ∧ ring.get (offset + i) = .ok byte)) ∧
    ∀ index, ring.Gets index := by
  refine ⟨?_, h.valid.gets⟩
  intro memory hmemory offset length
  refine ⟨checkRange ring.toList.length offset length, checkRange_ok_iff_inRange,
    fun _ => checkRange_error_iff, h.valid.exports hmemory offset length, ?_⟩
  intro haccepted
  have hrange := checkRange_ok_iff_inRange.1 haccepted
  exact ⟨length_window hrange, fun i hi => h.valid.window_get hrange hi⟩

/-- A range across the end of the storage is handed out, an empty one behind the last byte is not,
and an end that is no word lies behind the last byte too. -/
theorem exporters_share_verdict_across_end :
    bent.exportRange .ordinary 1 2 = .ok [20, 30] ∧
      (bent.hexRange 1 2).map String.toList = .ok ['1', '4', '1', 'E'] ∧
      (bent.copyRange .ordinary 1 2).map fifo = .ok ⟨2, [20, 30]⟩ ∧
      bent.copyTo 3 0 [7] 0 = (.error (.badArgument .offsetOutOfRange), [7]) ∧
      Guarded.checkRange 3 2 (Machine.wordLimit - 1) = .error (.badArgument .endOutOfRange) ∧
      bent.get 2 = .ok 30 ∧
      bent.get 3 = .error (.tooSmall 4 3) ∧
      bent.get 4 = .error (.badArgument .indexAboveCapacity) := by
  obtain ⟨hexporters, hgets⟩ := exporters_share_verdict reachable_bent
  have hverdicts := hexporters .ordinary rfl
  obtain ⟨_, hok, -, hacross, -⟩ := hverdicts 1 2
  obtain rfl := hok.2 ⟨.inr (by decide), by decide⟩
  obtain ⟨_, -, herror, hempty, -⟩ := hverdicts 3 0
  obtain rfl := (herror _).2 (.offset (by decide) (by decide))
  obtain ⟨_, -, herror, hhuge, -⟩ := hverdicts 2 (Machine.wordLimit - 1)
  obtain rfl := (herror _).2 (.stop (.inr (by decide)) (by decide))
  exact ⟨hacross.exportRange, hacross.hexRange, hacross.copyRange,
    hempty.copyTo [7] (by decide), hhuge.inWords (by decide),
    ((hgets 2).ok_iff 30).2 rfl, ((hgets 3).error_iff _).2 (.spare (by decide) (by decide)),
    ((hgets 4).error_iff _).2 (.outside (by decide))⟩

/-- What a copy into a window of a target writes, and what it leaves as it is. -/
structure Copies (ring : ByteRing) (offset length : Nat) (target : List UInt8)
    (targetOffset : Nat) : Prop where
  ok_iff : (ring.copyTo offset length target targetOffset).1 = .ok () ↔
    InRange ring.toList.length offset length ∧ InRange target.length targetOffset length
  error_iff : ∀ fault, (ring.copyTo offset length target targetOffset).1 = .error fault ↔
    RangeFault ring.toList.length offset length fault ∨
      InRange ring.toList.length offset length ∧
        RangeFault target.length targetOffset length fault
  written : (ring.copyTo offset length target targetOffset).1 = .ok () →
    (ring.copyTo offset length target targetOffset).2 =
      target.take targetOffset ++ ring.window offset length ++
        target.drop (targetOffset + length)
  refused : ∀ fault, (ring.copyTo offset length target targetOffset).1 = .error fault →
    (ring.copyTo offset length target targetOffset).2 = target
  length_eq : (ring.copyTo offset length target targetOffset).2.length = target.length
  inside : (ring.copyTo offset length target targetOffset).1 = .ok () → ∀ i < length,
    (ring.copyTo offset length target targetOffset).2[targetOffset + i]? =
      ring.toList[offset + i]?
  outside : ∀ place, place < targetOffset ∨ targetOffset + length ≤ place →
    (ring.copyTo offset length target targetOffset).2[place]? = target[place]?
  ring_eq : ∀ memory, (ring.answer memory (.copyTo offset length target targetOffset)).2 = ring
  /-- No step of the two copies is stopped, and no sum that is no word is taken for a small one. -/
  inWords : ring.storage.size ≤ Machine.blockLimit → target.length ≤ Machine.blockLimit →
    Guarded.copyTo ring offset length target targetOffset =
      .ok (ring.copyTo offset length target targetOffset)

theorem copy_writes_only_window (h : ring.Reachable) (offset length : Nat) (target : List UInt8)
    (targetOffset : Nat) : ring.Copies offset length target targetOffset where
  ok_iff := h.valid.copyTo_ok_iff
  error_iff _ := h.valid.copyTo_error_iff
  written hcopied := by
    obtain ⟨hsource, htarget⟩ := h.valid.copyTo_ok_iff.1 hcopied
    exact congrArg Prod.snd (h.valid.copyTo_of_inRange hsource htarget)
  refused _ hrefused := copyTo_of_error hrefused
  length_eq := length_copyTo ring offset length target targetOffset
  inside hcopied _ hi := h.valid.copyTo_inside hcopied hi
  outside _ hplace := h.valid.copyTo_outside hplace
  ring_eq _ := rfl
  inWords hsize htarget := Guarded.copyTo_eq ⟨h.valid, hsize⟩ offset length htarget targetOffset

/-- The window takes both pieces of its range. A target that is too short for it is kept. -/
theorem copy_writes_only_window_across_end :
    (bent.copyTo 1 2 [1, 2, 3, 4] 1).2 = [1, 20, 30, 4] ∧
      (bent.copyTo 1 2 [1, 2] 1).1 = .error (.badArgument .endOutOfRange) ∧
      (bent.copyTo 1 2 [1, 2] 1).2 = [1, 2] ∧
      -- both ranges are none, and the reason is that of the source
      (bent.copyTo 2 2 [] 1).1 = .error (.badArgument .endOutOfRange) := by
  have hfits := copy_writes_only_window reachable_bent 1 2 [1, 2, 3, 4] 1
  have hshort := copy_writes_only_window reachable_bent 1 2 [1, 2] 1
  have hboth := copy_writes_only_window reachable_bent 2 2 [] 1
  have hcopied := hfits.ok_iff.2 ⟨⟨.inr (by decide), by decide⟩, .inr (by decide), by decide⟩
  have hrefused := (hshort.error_iff _).2
    (.inr ⟨⟨.inr (by decide), by decide⟩, .stop (.inr (by decide)) (by decide)⟩)
  exact ⟨hfits.written hcopied, hrefused, hshort.refused _ hrefused,
    (hboth.error_iff _).2 (.inl (.stop (.inr (by decide)) (by decide)))⟩

end ByteRing

end CyclicQueue
