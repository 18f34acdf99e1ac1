import CyclicQueue.Proofs.ByteRing.Bulk
import CyclicQueue.Proofs.ByteRing.Equality
import CyclicQueue.Proofs.ByteRing.Ranges

/-!
# Copying is building

A copy of a range is the ring that the exported bytes are built into: the same checks refuse both,
in the same order, and the same bytes lie in the same slots. Whether the slots are filled at once or
byte by byte shows in no field of the ring.
-/

namespace CyclicQueue.ByteRing

variable {memory : Memory} {ring : ByteRing} {bytes : List UInt8}
  {size offset length capacity : Nat}

theorem Packed.eq {a b : ByteRing} (ha : a.Packed capacity bytes) (hb : b.Packed capacity bytes) :
    a = b := by
  rw [ByteRing.mk.injEq]
  refine ⟨?_, ?_, ?_, ?_⟩
  · exact Array.toList_inj.1 (ha.storage_eq.trans hb.storage_eq.symm)
  · exact ha.readPos_eq.trans hb.readPos_eq.symm
  · exact ha.writePos_eq.trans hb.writePos_eq.symm
  · exact ha.len_eq.trans hb.len_eq.symm

/-! ## Which rings are built -/

/-- A range of `size` bytes that a ring of the given capacity is built of. -/
structure Buildable (memory : Memory) (size offset length capacity : Nat) : Prop where
  inRange : InRange size offset length
  length_le : length ≤ capacity
  pos : 0 < capacity
  granted : capacity + 1 ≤ memory.limit

/-- The reason why no ring is built, in the order of the checks. -/
inductive BuildFault (memory : Memory) (size offset length capacity : Nat) : Fault → Prop
  | range {fault : Fault} (hrange : RangeFault size offset length fault) :
    BuildFault memory size offset length capacity fault
  | below (hrange : InRange size offset length) (hbelow : capacity < length) :
    BuildFault memory size offset length capacity (.badArgument .capacityBelowLength)
  | zero (hrange : InRange size offset length) (hle : length ≤ capacity) (hzero : capacity = 0) :
    BuildFault memory size offset length capacity (.badArgument .capacityNotPositive)
  | large (hrange : InRange size offset length) (hle : length ≤ capacity) (hpos : 0 < capacity)
    (hlarge : memory.limit < capacity + 1) :
    BuildFault memory size offset length capacity (.badArgument .capacityTooLarge)

theorem planned_of_buildable (h : Buildable memory bytes.length offset length capacity) :
    planned memory bytes offset length capacity =
      .ok ⟨capacity, (bytes.drop offset).take length⟩ := by
  have hpos := h.pos
  simp [planned, checkRange_ok_iff_inRange.2 h.inRange, Nat.not_lt.2 h.length_le,
    Nat.ne_of_gt hpos, Memory.reserve_eq_ok_iff.2 h.granted]

theorem planned_of_fault {fault : Fault}
    (h : BuildFault memory bytes.length offset length capacity fault) :
    planned memory bytes offset length capacity = .error fault := by
  cases h with
  | range hrange => simp [planned, checkRange_error_iff.2 hrange]
  | below hrange hbelow => simp [planned, checkRange_ok_iff_inRange.2 hrange, hbelow]
  | zero hrange hle hzero =>
    subst hzero
    obtain rfl : length = 0 := Nat.le_zero.1 hle
    simp [planned, checkRange_ok_iff_inRange.2 hrange]
  | large hrange hle hpos hlarge =>
    have hrefused := Memory.reserve_eq_error_iff.2 ⟨hlarge, rfl⟩
    simp [planned, checkRange_ok_iff_inRange.2 hrange, Nat.not_lt.2 hle, Nat.ne_of_gt hpos,
      hrefused]

/-- One of the checks refuses, or none does. -/
theorem buildable_or_fault (memory : Memory) (size offset length capacity : Nat) :
    Buildable memory size offset length capacity ∨
      ∃ fault, BuildFault memory size offset length capacity fault := by
  cases hrange : checkRange size offset length with
  | error fault => exact .inr ⟨fault, .range (checkRange_error_iff.1 hrange)⟩
  | ok _ =>
    have hin := checkRange_ok_iff_inRange.1 hrange
    rcases Nat.lt_or_ge capacity length with hbelow | hle
    · exact .inr ⟨_, .below hin hbelow⟩
    · rcases Nat.eq_zero_or_pos capacity with hzero | hpos
      · exact .inr ⟨_, .zero hin hle hzero⟩
      · rcases Nat.lt_or_ge memory.limit (capacity + 1) with hlarge | hgranted
        · exact .inr ⟨_, .large hin hle hpos hlarge⟩
        · exact .inl ⟨hin, hle, hpos, hgranted⟩

theorem planned_error_iff {fault : Fault} :
    planned memory bytes offset length capacity = .error fault ↔
      BuildFault memory bytes.length offset length capacity fault := by
  refine ⟨?_, planned_of_fault⟩
  intro hplan
  rcases buildable_or_fault memory bytes.length offset length capacity with hbuild | ⟨_, hfault⟩
  · cases hplan.symm.trans (planned_of_buildable hbuild)
  · cases hplan.symm.trans (planned_of_fault hfault)
    exact hfault

theorem planned_ok_iff {queue : Fifo} :
    planned memory bytes offset length capacity = .ok queue ↔
      Buildable memory bytes.length offset length capacity ∧
        queue = ⟨capacity, (bytes.drop offset).take length⟩ := by
  constructor
  · intro hplan
    rcases buildable_or_fault memory bytes.length offset length capacity with hbuild | ⟨_, hfault⟩
    · cases hplan.symm.trans (planned_of_buildable hbuild)
      exact ⟨hbuild, rfl⟩
    · cases hplan.symm.trans (planned_of_fault hfault)
  · rintro ⟨hbuild, rfl⟩
    exact planned_of_buildable hbuild

/-- What building a ring of a range of `bytes` gives. -/
structure Builds (memory : Memory) (bytes : List UInt8) (offset length capacity : Nat)
    (result : Except Fault ByteRing) : Prop where
  error_iff : ∀ fault, result = .error fault ↔
    BuildFault memory bytes.length offset length capacity fault
  ok_iff : ∀ built, result = .ok built ↔
    Buildable memory bytes.length offset length capacity ∧
      built.Packed capacity ((bytes.drop offset).take length)

theorem builds_planned (memory : Memory) (bytes : List UInt8) (offset length capacity : Nat) :
    Builds memory bytes offset length capacity
      ((planned memory bytes offset length capacity).map fresh) where
  error_iff fault := by
    rw [← planned_error_iff]
    cases planned memory bytes offset length capacity <;> simp [Except.map]
  ok_iff built := by
    constructor
    · intro hbuilt
      cases hplan : planned memory bytes offset length capacity with
      | error fault =>
        rw [hplan] at hbuilt
        cases hbuilt
      | ok queue =>
        rw [hplan] at hbuilt
        cases hbuilt
        obtain ⟨hbuild, rfl⟩ := planned_ok_iff.1 hplan
        exact ⟨hbuild, packed_fresh (fits_of_planned hplan).1⟩
    · rintro ⟨hbuild, hpacked⟩
      have hplan := planned_of_buildable hbuild
      have hfresh := packed_fresh (fits_of_planned hplan).1
      rw [hplan, hpacked.eq hfresh]
      rfl

theorem builds_ofRangeWithCapacity (memory : Memory) (bytes : List UInt8)
    (offset length capacity : Nat) :
    Builds memory bytes offset length capacity
      (ofRangeWithCapacity memory bytes offset length capacity) := by
  rw [ofRangeWithCapacity_eq]
  exact builds_planned memory bytes offset length capacity

theorem isOk_ofRangeWithCapacity_iff :
    (ofRangeWithCapacity memory bytes offset length capacity).isOk = true ↔
      Buildable memory bytes.length offset length capacity := by
  rw [ofRangeWithCapacity_eq]
  rcases buildable_or_fault memory bytes.length offset length capacity with hbuild | ⟨fault, hfault⟩
  · rw [planned_of_buildable hbuild]
    exact iff_of_true rfl hbuild
  · rw [planned_of_fault hfault]
    refine iff_of_false (by rintro ⟨⟩) ?_
    intro hbuild
    cases (planned_of_fault hfault).symm.trans (planned_of_buildable hbuild)

/-- Only the storage of the new ring is asked of the memory. -/
theorem planned_congr {memory' : Memory}
    (hsame : memory'.reserve (capacity + 1) = memory.reserve (capacity + 1)) :
    planned memory' bytes offset length capacity = planned memory bytes offset length capacity := by
  simp [planned, hsame]

/-! ## Copying a range -/

theorem Valid.copyRangeWithCapacity_eq_ofRange (h : ring.Valid) (memory : Memory)
    (offset length capacity : Nat) :
    ring.copyRangeWithCapacity memory offset length capacity =
      ofRangeWithCapacity memory ring.toList offset length capacity :=
  (h.copyRangeWithCapacity_eq memory offset length capacity).trans
    (ofRangeWithCapacity_eq memory ring.toList offset length capacity).symm

/-- Copying a range of the contents and building a ring of that range of the exported bytes are one
function: both refuse what the first check that fails refuses, and otherwise give the one ring that
holds the range from slot 0 on, with zeros behind it. -/
theorem copying_is_building (h : ring.Reachable) (memory : Memory) (offset length : Nat) :
    (∀ capacity,
      ring.copyRangeWithCapacity memory offset length capacity =
          ofRangeWithCapacity memory ring.toList offset length capacity ∧
        Builds memory ring.toList offset length capacity
          (ring.copyRangeWithCapacity memory offset length capacity) ∧
        ∀ memory' : Memory, memory'.reserve (capacity + 1) = memory.reserve (capacity + 1) →
          ring.copyRangeWithCapacity memory' offset length capacity =
            ring.copyRangeWithCapacity memory offset length capacity) ∧
      ring.copyRange memory offset length = ofRange memory ring.toList offset length ∧
      Builds memory ring.toList offset length (max length 1)
        (ring.copyRange memory offset length) ∧
      (memory.limit ≤ Machine.blockLimit → ring.storage.size ≤ Machine.blockLimit → ∀ capacity,
        Guarded.copyRangeWithCapacity memory ring offset length capacity =
            .ok (ring.copyRangeWithCapacity memory offset length capacity) ∧
          Guarded.ofRangeWithCapacity memory ring.toList offset length capacity =
            .ok (ring.copyRangeWithCapacity memory offset length capacity)) := by
  have hvalid := h.valid
  have hbuilds : ∀ capacity, Builds memory ring.toList offset length capacity
      (ring.copyRangeWithCapacity memory offset length capacity) := by
    intro capacity
    rw [hvalid.copyRangeWithCapacity_eq]
    exact builds_planned memory ring.toList offset length capacity
  refine ⟨?_, ?_, hbuilds (max length 1), ?_⟩
  · intro capacity
    refine ⟨hvalid.copyRangeWithCapacity_eq_ofRange .., hbuilds capacity, ?_⟩
    intro memory' hsame
    simp only [hvalid.copyRangeWithCapacity_eq, planned_congr hsame]
  · exact hvalid.copyRangeWithCapacity_eq_ofRange memory offset length (max length 1)
  · intro hmemory hsize capacity
    have hlen := hvalid.len_lt
    have hbytes : ring.toList.length ≤ Machine.blockLimit := by
      rw [hvalid.length_toList]
      omega
    refine ⟨Guarded.copyRangeWithCapacity_eq ⟨hvalid, hsize⟩ hmemory .., ?_⟩
    rw [Guarded.ofRangeWithCapacity_eq hmemory hbytes, hvalid.copyRangeWithCapacity_eq_ofRange]

/-- A range across the end of the storage is copied. Where several checks fail the first one is
told, and the largest word is a capacity that no memory grants. -/
theorem copying_is_building_across_end :
    bent.copyRangeWithCapacity .ordinary 1 2 3 = .ok ⟨#[20, 30, 0, 0], 0, 2, 2⟩ ∧
      ofRangeWithCapacity .ordinary bent.toList 1 2 3 = .ok ⟨#[20, 30, 0, 0], 0, 2, 2⟩ ∧
      bent.copyRangeWithCapacity .ordinary 3 2 0 = .error (.badArgument .offsetOutOfRange) ∧
      bent.copyRangeWithCapacity .ordinary 1 3 0 = .error (.badArgument .endOutOfRange) ∧
      bent.copyRangeWithCapacity .ordinary 1 2 0 = .error (.badArgument .capacityBelowLength) ∧
      bent.copyRangeWithCapacity .ordinary 1 0 0 = .error (.badArgument .capacityNotPositive) ∧
      Guarded.copyRangeWithCapacity .ordinary bent 1 2 (Machine.wordLimit - 1) =
        .ok (.error (.badArgument .capacityTooLarge)) := by
  have hrange {length : Nat} (hend : 1 + length ≤ 3) : InRange bent.toList.length 1 length :=
    ⟨.inr (by decide), hend⟩
  obtain ⟨htwo, -, -, hwords⟩ := copying_is_building reachable_bent .ordinary 1 2
  obtain ⟨hsame, hbuilds, -⟩ := htwo 3
  have hcopied := (hbuilds.ok_iff ⟨#[20, 30, 0, 0], 0, 2, 2⟩).2
    ⟨⟨hrange (by decide), by decide, by decide, by decide⟩, rfl, rfl, rfl, rfl, rfl, rfl⟩
  obtain ⟨hbehind, -⟩ := copying_is_building reachable_bent .ordinary 3 2
  obtain ⟨hlong, -⟩ := copying_is_building reachable_bent .ordinary 1 3
  obtain ⟨hnone, -⟩ := copying_is_building reachable_bent .ordinary 1 0
  obtain ⟨hlargest, -⟩ := hwords (by decide) (by decide) (Machine.wordLimit - 1)
  have hlarge := ((htwo (Machine.wordLimit - 1)).2.1.error_iff _).2
    (.large (hrange (by decide)) (by decide) (by decide) (by decide))
  refine ⟨hcopied, hsame ▸ hcopied, ?_, ?_, ?_, ?_, hlarge ▸ hlargest⟩
  · exact ((hbehind 0).2.1.error_iff _).2 (.range (.offset (by decide) (by decide)))
  · exact ((hlong 0).2.1.error_iff _).2 (.range (.stop (.inr (by decide)) (by decide)))
  · exact ((htwo 0).2.1.error_iff _).2 (.below (hrange (by decide)) (by decide))
  · exact ((hnone 0).2.1.error_iff _).2 (.zero (hrange (by decide)) (by decide) rfl)

/-! ## Filling at once and byte by byte -/

/-- All ways to build a ring that holds `queue` give this one, and it is its own realignment. -/
structure BuiltAs (memory : Memory) (queue : Fifo) (built : ByteRing) : Prop where
  packed : built.Packed queue.capacity queue.held
  ofBytes : ofBytesWithCapacity memory queue.held queue.capacity = .ok built
  pushes : ∃ empty, withCapacity memory queue.capacity = .ok empty ∧
    empty.updates (queue.held.map .push) =
      (List.replicate queue.held.length (.ok .nothing), built)
  realign : built.realign = built

theorem ofBytesWithCapacity_of_fits {queue : Fifo} (hfits : queue.Fits)
    (hgranted : memory.reserve (queue.capacity + 1) = .ok ()) :
    ofBytesWithCapacity memory queue.held queue.capacity = .ok (fresh queue) := by
  have hbuild : Buildable memory queue.held.length 0 queue.held.length queue.capacity :=
    ⟨⟨.inl rfl, by omega⟩, hfits.bounded, hfits.pos, Memory.reserve_eq_ok_iff.1 hgranted⟩
  rw [ofBytesWithCapacity, ofRangeWithCapacity_eq, planned_of_buildable hbuild, List.drop_zero,
    List.take_length]
  rfl

theorem builtAs_fresh {queue : Fifo} (hfits : queue.Fits)
    (hgranted : memory.reserve (queue.capacity + 1) = .ok ()) :
    BuiltAs memory queue (fresh queue) where
  packed := packed_fresh hfits
  ofBytes := ofBytesWithCapacity_of_fits hfits hgranted
  pushes := by
    have hempty : withCapacity memory queue.capacity = .ok (blank queue.capacity) := by
      rw [withCapacity_eq, if_neg (Nat.ne_of_gt hfits.pos), hgranted]
      rfl
    refine ⟨blank queue.capacity, hempty, ?_⟩
    apply (valid_blank hfits.pos).updates_push
    rw [free_blank]
    exact hfits.bounded
  realign := by
    rw [(valid_fresh hfits).realign_eq_fresh, fifo_fresh hfits]

theorem Valid.realign_beq (h : ring.Valid) : (ring.realign == ring) = true := by
  have hfits := fits_fifo h
  rw [h.realign_eq_fresh, (valid_fresh hfits).beq_iff h]
  exact toList_fresh hfits

/-- A ring that is realigned, a copy of all that it holds, and the rings that its contents are built
into, at once or one byte after the other, are the same in every slot and in both cursors. So are
the rings that are built of bytes without a capacity, which are full unless there are no bytes. -/
theorem filling_is_pushing (memory : Memory) :
    (∀ ring : ByteRing, ring.Reachable → memory.reserve (ring.capacity + 1) = .ok () →
      BuiltAs memory ring.fifo ring.realign ∧
        ring.copyRangeWithCapacity memory 0 ring.toList.length ring.capacity =
          .ok ring.realign ∧
        (ring.realign == ring) = true) ∧
      ∀ bytes : List UInt8, memory.reserve (max bytes.length 1 + 1) = .ok () →
        BuiltAs memory ⟨max bytes.length 1, bytes⟩ (ofBytes bytes) ∧
          ofRange memory bytes 0 bytes.length = .ok (ofBytes bytes) ∧
          (Recipe.ofBytes bytes).make memory = .ok (ofBytes bytes) ∧
          (bytes ≠ [] → (ofBytes bytes).isFull = true) ∧
          (bytes = [] → (ofBytes bytes).capacity = 1 ∧ (ofBytes bytes).isEmpty = true) := by
  constructor
  · intro ring h hgranted
    have hvalid := h.valid
    have hbuilt := builtAs_fresh (fits_fifo hvalid) hgranted
    rw [← hvalid.realign_eq_fresh] at hbuilt
    refine ⟨hbuilt, ?_, hvalid.realign_beq⟩
    exact (hvalid.copyRangeWithCapacity_eq_ofRange ..).trans hbuilt.ofBytes
  · intro bytes hgranted
    have hbuilt := builtAs_fresh (fits_ofBytes bytes) hgranted
    rw [← ofBytes_eq_fresh] at hbuilt
    have hlen := hbuilt.packed.len_eq
    have hcapacity := hbuilt.packed.capacity_eq
    refine ⟨hbuilt, hbuilt.ofBytes, rfl, ?_, ?_⟩
    · intro hne
      have hpos := List.length_pos_iff.2 hne
      rw [isFull_iff, hlen, hcapacity]
      exact (Nat.max_eq_left hpos).symm
    · rintro rfl
      exact ⟨rfl, rfl⟩

/-- A ring that goes round the end of its storage is realigned, and a full one and an empty one are
built. -/
theorem filling_is_pushing_wrapped :
    bent.realign = ⟨#[10, 20, 30, 0, 0], 0, 3, 3⟩ ∧
      bent.copyRangeWithCapacity .ordinary 0 3 4 = .ok ⟨#[10, 20, 30, 0, 0], 0, 3, 3⟩ ∧
      (bent.realign == bent) = true ∧
      ofRange .ordinary [7, 8] 0 2 = .ok ⟨#[7, 8, 0], 0, 2, 2⟩ ∧
      (ofBytes [7, 8]).isFull = true ∧ (ofBytes []).isEmpty = true := by
  obtain ⟨hrings, hbytes⟩ := filling_is_pushing .ordinary
  obtain ⟨-, hcopied, hequal⟩ := hrings bent reachable_bent rfl
  obtain ⟨-, hrange, -, hfull, -⟩ := hbytes [7, 8] rfl
  obtain ⟨-, -, -, -, hempty⟩ := hbytes [] rfl
  exact ⟨rfl, hcopied, hequal, hrange, hfull (by decide), (hempty rfl).2⟩

end CyclicQueue.ByteRing
