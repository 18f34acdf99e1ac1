import CyclicQueue.Proofs.ByteRing.Conservation
import CyclicQueue.Proofs.ByteRing.Cursors
import CyclicQueue.Proofs.Refusal

/-!
# Where the contents lie

Both cursors only ever go forward, by as many slots as bytes go in and out, until the ring is
cleared. So the two counts alone tell where the contents start, where they end, and whether they go
round the end of the storage.
-/

namespace CyclicQueue.ByteRing

variable {ring left : ByteRing} {capacity added removed : Nat} {tally : Tally}

/-! ## One step -/

/-- A ring that has taken in `added` bytes and passed `removed` of those it held. -/
structure Shifted (ring : ByteRing) (added removed : Nat) (left : ByteRing) : Prop where
  leads : ring.Leads left
  readPos_eq : left.readPos = Cursor.forward ring.storage.size ring.readPos removed
  writePos_eq : left.writePos = Cursor.forward ring.storage.size ring.writePos added
  len_add : left.len + removed = ring.len + added
  removed_le : removed ≤ ring.len

theorem Valid.shifted_append (h : ring.Valid) {bytes : List UInt8}
    (hfit : bytes.length ≤ ring.free) : ring.Shifted bytes.length 0 (ring.append bytes) where
  leads := .append .refl hfit
  readPos_eq := (Cursor.forward_zero h.readPos_lt).symm
  writePos_eq := rfl
  len_add := rfl
  removed_le := Nat.zero_le _

theorem Valid.shifted_advance (h : ring.Valid) {count : Nat} (hheld : count ≤ ring.len) :
    ring.Shifted 0 count (ring.advance count) where
  leads := .advance .refl hheld
  readPos_eq := rfl
  writePos_eq := (Cursor.forward_zero h.writePos_lt).symm
  len_add := Nat.sub_add_cancel hheld
  removed_le := hheld

/-- A change that goes through moves the cursors by what it counts, unless it clears the ring. -/
theorem Valid.shifted_update (h : ring.Valid) {change : Update} (hclear : change ≠ .clear)
    (hok : (ring.update change).1.isOk = true) :
    ring.Shifted change.adds change.removes (ring.update change).2 := by
  have hmoved := h.moved_update change
  generalize ring.update change = result at hmoved hok ⊢
  cases hmoved with
  | refused fault => cases hok
  | cleared hcleared => exact absurd hcleared hclear
  | added hfit hadds hremoves =>
    rw [hadds, hremoves]
    exact h.shifted_append hfit
  | removed handed hheld hadds =>
    rw [hadds]
    exact h.shifted_advance hheld

theorem Valid.shifted_transfer (h : ring.Valid) (step : Transfer) :
    ring.Shifted (step.accepted (ring.transfer step).1).length
      (step.delivered (ring.transfer step).1).length (ring.transfer step).2 := by
  cases step with
  | write bytes =>
    have hadded : Transfer.accepted (.write bytes) (ring.transfer (.write bytes)).1 =
        bytes.take ring.free := by
      simp only [transfer, h.write_eq, Transfer.accepted, take_min_free]
    have hleft : (ring.transfer (.write bytes)).2 = ring.append (bytes.take ring.free) := by
      simp only [transfer, h.write_eq]
    rw [hadded, hleft]
    exact h.shifted_append (List.length_take_le _ _)
  | read buffer =>
    -- how many bytes are handed over is what the conservation of bytes leaves for them
    have hconserved := congrArg List.length (h.transfer_conserves (.read buffer))
    have hleft : (ring.transfer (.read buffer)).2 =
        ring.advance (min buffer.length ring.len) := by
      simp only [transfer, h.read_eq]
    have hadvanced := h.advance (Nat.min_le_right buffer.length ring.len)
    simp only [Transfer.accepted, List.append_nil, List.length_append, hleft, h.length_toList,
      hadvanced.length_toList, len_advance] at hconserved
    have hremoved : (Transfer.delivered (.read buffer) (ring.transfer (.read buffer)).1).length =
        min buffer.length ring.len := by
      omega
    rw [hremoved, hleft]
    exact h.shifted_advance (Nat.min_le_right _ _)

namespace Shifted

/-- A ring that a step leaves empty keeps the cursors together where the write cursor was. -/
theorem cursors_of_isEmpty (h : ring.Shifted added removed left) (hring : ring.Valid)
    (hempty : left.isEmpty = true) :
    left.readPos = ring.writePos ∧ left.writePos = ring.writePos := by
  have hlen : left.len = 0 := beq_iff_eq.1 hempty
  have hsum := h.len_add
  have hle := h.removed_le
  -- bytes that are added stay, so an empty ring has taken in none
  have hnothing : added = 0 := by omega
  have hwrite : left.writePos = ring.writePos := by
    rw [h.writePos_eq, hnothing, Cursor.forward_zero hring.writePos_lt]
  refine ⟨?_, hwrite⟩
  rw [← hwrite]
  exact (h.leads.valid hring).readPos_eq_writePos_iff.2 hempty

theorem cursors_of_zero (h : ring.Shifted 0 0 left) (hring : ring.Valid) :
    left.readPos = ring.readPos ∧ left.writePos = ring.writePos := by
  rw [h.readPos_eq, h.writePos_eq]
  exact ⟨Cursor.forward_zero hring.readPos_lt, Cursor.forward_zero hring.writePos_lt⟩

end Shifted

/-! ## Counting along a run -/

/-- The cursors and the length of a ring as its tally tells them. -/
structure Tallied (capacity : Nat) (tally : Tally) (ring : ByteRing) : Prop where
  valid : ring.Valid
  capacity_eq : ring.capacity = capacity
  removed_le : tally.removed ≤ tally.added
  readPos_eq : ring.readPos = tally.removed % (capacity + 1)
  writePos_eq : ring.writePos = tally.added % (capacity + 1)
  len_eq : ring.len = tally.added - tally.removed

theorem tallied_fresh {queue : Fifo} (h : queue.Fits) :
    (fresh queue).Tallied queue.capacity ⟨queue.held.length, 0⟩ where
  valid := valid_fresh h
  capacity_eq := congrArg Fifo.capacity (fifo_fresh h)
  removed_le := Nat.zero_le _
  readPos_eq := (Nat.zero_mod _).symm
  writePos_eq := by
    simp [fresh, append, blank, Cursor.forward]
  len_eq := Nat.zero_add _

namespace Tallied

theorem clear (h : ring.Tallied capacity tally) : ring.clear.Tallied capacity ⟨0, 0⟩ where
  valid := h.valid.clear
  capacity_eq := h.capacity_eq
  removed_le := Nat.le_refl 0
  readPos_eq := (Nat.zero_mod _).symm
  writePos_eq := (Nat.zero_mod _).symm
  len_eq := rfl

theorem shifted (h : ring.Tallied capacity tally) (hshifted : ring.Shifted added removed left) :
    left.Tallied capacity ⟨tally.added + added, tally.removed + removed⟩ := by
  have hsize : ring.storage.size = capacity + 1 := h.capacity_eq ▸ h.valid.size_eq
  have hlen := h.len_eq
  have hle := h.removed_le
  have hsum := hshifted.len_add
  have hheld := hshifted.removed_le
  refine ⟨hshifted.leads.valid h.valid, ?_, ?_, ?_, ?_, ?_⟩
  · exact hshifted.leads.capacity_eq.trans h.capacity_eq
  · change tally.removed + removed ≤ tally.added + added
    omega
  · rw [hshifted.readPos_eq, h.readPos_eq, hsize, Cursor.forward, Nat.mod_add_mod]
  · rw [hshifted.writePos_eq, h.writePos_eq, hsize, Cursor.forward, Nat.mod_add_mod]
  · change left.len = tally.added + added - (tally.removed + removed)
    omega

theorem update (h : ring.Tallied capacity tally) (change : Update) :
    (ring.update change).2.Tallied capacity (tally.change change (ring.update change).1) := by
  by_cases hclear : change = .clear
  · subst hclear
    exact h.clear
  · cases hupdate : (ring.update change).1 with
    | error fault =>
      rw [h.valid.update_of_error hupdate]
      exact h
    | ok handed =>
      have hok : (ring.update change).1.isOk = true := hupdate ▸ rfl
      simp only [Tally.change, if_neg hclear]
      exact h.shifted (h.valid.shifted_update hclear hok)

theorem transfer (h : ring.Tallied capacity tally) (step : Transfer) :
    (ring.transfer step).2.Tallied capacity (tally.transfer step (ring.transfer step).1) :=
  h.shifted (h.valid.shifted_transfer step)

end Tallied

/-- Rings that have come about, each with the capacity it was built for and its tally. Building
counts the first contents as taken in, and a clone goes on with the counts of its original. -/
inductive Counted : Nat → Tally → ByteRing → Prop
  | made {memory : Memory} {recipe : Recipe} {ring : ByteRing} {queue : Fifo}
    (hmake : recipe.make memory = .ok ring) (hqueue : recipe.queue? = some queue) :
    Counted queue.capacity ⟨queue.held.length, 0⟩ ring
  | copied {memory : Memory} {derivation : Derivation} {source ring : ByteRing}
    (hsource : source.Reachable) (hcopy : derivation ≠ .same)
    (hderive : source.derive memory derivation = .ok ring) :
    Counted (derivation.queue source.fifo).capacity
      ⟨(derivation.queue source.fifo).held.length, 0⟩ ring
  | cloned {memory : Memory} {capacity : Nat} {tally : Tally} {source ring : ByteRing}
    (hsource : Counted capacity tally source) (hderive : source.derive memory .same = .ok ring) :
    Counted capacity tally ring
  | changed {capacity : Nat} {tally : Tally} {ring : ByteRing}
    (hring : Counted capacity tally ring) (change : Update) :
    Counted capacity (tally.change change (ring.update change).1) (ring.update change).2
  | transferred {capacity : Nat} {tally : Tally} {ring : ByteRing}
    (hring : Counted capacity tally ring) (step : Transfer) :
    Counted capacity (tally.transfer step (ring.transfer step).1) (ring.transfer step).2

theorem Counted.tallied (h : Counted capacity tally ring) : ring.Tallied capacity tally := by
  induction h with
  | made hmake hqueue =>
    obtain ⟨queue, hqueue', hfits, rfl⟩ := fresh_of_make hmake
    cases hqueue.symm.trans hqueue'
    exact tallied_fresh hfits
  | copied hsource hcopy hderive =>
    obtain ⟨hfits, rfl⟩ := hsource.valid.fresh_of_derive hcopy hderive
    exact tallied_fresh hfits
  | cloned hsource hderive ih =>
    cases hderive
    exact ih
  | changed hring change ih => exact ih.update change
  | transferred hring step ih => exact ih.transfer step

/-! ## The two pieces -/

/-- Contents of which the oldest byte lies in slot `start`, as two pieces of the storage. -/
structure Laid (capacity start : Nat) (ring : ByteRing) : Prop where
  slices_eq : ring.slices = ⟨ring.stretch start (min ring.len (capacity + 1 - start)),
    ring.stretch 0 (ring.len - (capacity + 1 - start))⟩
  length_head : ring.slices.head.length = min ring.len (capacity + 1 - start)
  length_tail : ring.slices.tail.length = ring.len - ring.slices.head.length
  tail_ne_nil_iff : ring.slices.tail ≠ [] ↔ capacity + 1 < start + ring.len
  head_to_end : ring.slices.tail ≠ [] → start + ring.slices.head.length = ring.storage.size
  head_eq_nil_iff : ring.slices.head = [] ↔ ring.isEmpty = true

theorem Valid.slices_eq (h : ring.Valid) :
    ring.slices = ⟨ring.stretch ring.readPos (min ring.len (ring.storage.size - ring.readPos)),
      ring.stretch 0 (ring.len - (ring.storage.size - ring.readPos))⟩ := by
  rw [slices, runs]
  simp only [← h.readPos_eq_slot]
  split
  · next hwhole =>
    rw [Nat.min_eq_left hwhole, Nat.sub_eq_zero_of_le hwhole]
    simp [stretch]
  · next hround => rw [Nat.min_eq_right (by omega)]

theorem Valid.laid (h : ring.Valid) : ring.Laid ring.capacity ring.readPos := by
  have hsize := h.size_eq
  have hread := h.readPos_lt
  have hlen := h.len_lt
  have hhead : ring.slices.head.length = min ring.len (ring.storage.size - ring.readPos) := by
    rw [h.readPos_eq_slot]
    exact length_head_runs 0 ring.len h.size_pos
  have htail : ring.slices.tail.length = ring.len - (ring.storage.size - ring.readPos) := by
    rw [h.readPos_eq_slot]
    exact length_tail_runs h.size_pos (Nat.le_of_lt hlen)
  refine ⟨?_, ?_, ?_, ?_, ?_, ?_⟩
  · rw [← hsize]
    exact h.slices_eq
  · rw [← hsize]
    exact hhead
  · omega
  · rw [← List.length_pos_iff]
    omega
  · rw [← List.length_pos_iff]
    omega
  · rw [← List.length_eq_zero_iff, isEmpty, beq_iff_eq]
    omega

/-- What a request does to the cursors where it empties the ring, is refused or moves no byte. -/
structure Steady (ring : ByteRing) : Prop where
  emptied : ∀ change, change ≠ .clear → (ring.update change).2.isEmpty = true →
    (ring.update change).2.readPos = ring.writePos ∧
      (ring.update change).2.writePos = ring.writePos
  emptied_transfer : ∀ step, (ring.transfer step).2.isEmpty = true →
    (ring.transfer step).2.readPos = ring.writePos ∧
      (ring.transfer step).2.writePos = ring.writePos
  refused : ∀ change fault, (ring.update change).1 = .error fault →
    (ring.update change).2.readPos = ring.readPos ∧
      (ring.update change).2.writePos = ring.writePos
  idle : ∀ change, change ≠ .clear → change.adds = 0 → change.removes = 0 →
    (ring.update change).2.readPos = ring.readPos ∧
      (ring.update change).2.writePos = ring.writePos
  idle_transfer : ∀ step, (∀ count, (ring.transfer step).1.outcome = .ok count → count = 0) →
    (ring.transfer step).2.readPos = ring.readPos ∧
      (ring.transfer step).2.writePos = ring.writePos

theorem Valid.steady (h : ring.Valid) : ring.Steady where
  emptied change hclear hempty := by
    cases hupdate : (ring.update change).1 with
    | error fault =>
      rw [h.update_of_error hupdate] at hempty ⊢
      exact ⟨h.readPos_eq_writePos_iff.2 hempty, rfl⟩
    | ok handed =>
      exact (h.shifted_update hclear (hupdate ▸ rfl)).cursors_of_isEmpty h hempty
  emptied_transfer step hempty := (h.shifted_transfer step).cursors_of_isEmpty h hempty
  refused change fault hrefused := by
    rw [h.update_of_error hrefused]
    exact ⟨rfl, rfl⟩
  idle change hclear hadds hremoves := by
    cases hupdate : (ring.update change).1 with
    | error fault =>
      rw [h.update_of_error hupdate]
      exact ⟨rfl, rfl⟩
    | ok handed =>
      have hshifted := h.shifted_update hclear (hupdate ▸ rfl)
      rw [hadds, hremoves] at hshifted
      exact hshifted.cursors_of_zero h
  idle_transfer step hzero := by
    have hshifted := h.shifted_transfer step
    obtain ⟨hadded, hremoved⟩ := step.eq_nil_of_count hzero
    rw [hadded, hremoved] at hshifted
    exact hshifted.cursors_of_zero h

/-- In every ring that has come about, the bytes taken in and those removed since it was built or
last cleared tell both cursors, the length, and the two pieces of the storage that hold the
contents. Emptying a ring does not take its cursors back, and a request that is refused or moves no
byte leaves them. -/
theorem counts_tell_layout (h : Counted capacity tally ring) :
    ring.Tallied capacity tally ∧ ring.Laid capacity (tally.removed % (capacity + 1)) ∧
      ring.Steady := by
  have htallied := h.tallied
  refine ⟨htallied, ?_, htallied.valid.steady⟩
  rw [← htallied.readPos_eq, ← htallied.capacity_eq]
  exact htallied.valid.laid

/-- A ring of three bytes is built with two, emptied and filled by a write. Its clone has taken in
five bytes and passed two: the contents start in slot 2 and go round the end to slot 0. -/
theorem counts_tell_layout_wrapped :
    ∃ ring : ByteRing, Counted 3 ⟨5, 2⟩ ring ∧ ring.readPos = 2 ∧ ring.writePos = 1 ∧
      ring.slices = ⟨[7, 8], [9]⟩ ∧ ring.Tallied 3 ⟨5, 2⟩ ∧ ring.Laid 3 2 := by
  have hmake : (Recipe.ofBytesWithCapacity [5, 6] 3).make .ordinary =
      .ok (filled 3 [5, 6] []) := rfl
  have hemptied := (Counted.made hmake rfl).changed (.take 2)
  have hwritten := hemptied.transferred (.write [7, 8, 9, 10])
  have hcloned := @Counted.cloned .ordinary _ _ _ _ hwritten rfl
  obtain ⟨htallied, hlaid, -⟩ := counts_tell_layout hcloned
  exact ⟨_, hcloned, rfl, rfl, rfl, htallied, hlaid⟩

end CyclicQueue.ByteRing
