import CyclicQueue.Proofs.ByteRing.Transitions

/-!
# How the cursors tell what a ring holds

However a ring is built and whatever is asked of it, its storage keeps one slot more than its
capacity and the write cursor stays as many slots behind the read cursor as bytes are held. Since
one slot is always spare, the cursors meet exactly in an empty ring, never in a full one.
-/

namespace CyclicQueue.ByteRing

variable {ring : ByteRing} {capacity : Nat}

/-- How storage, cursors and length of a ring of the given capacity fit together. -/
structure Fitted (capacity : Nat) (ring : ByteRing) : Prop where
  size_eq : ring.storage.size = capacity + 1
  two_le_size : 2 ≤ ring.storage.size
  readPos_lt : ring.readPos < ring.storage.size
  writePos_lt : ring.writePos < ring.storage.size
  len_le : ring.len ≤ capacity
  writePos_eq : ring.writePos = (ring.readPos + ring.len) % (capacity + 1)

theorem Valid.fitted (h : ring.Valid) : ring.Fitted ring.capacity where
  size_eq := h.size_eq
  two_le_size := h.two_le_size
  readPos_lt := h.readPos_lt
  writePos_lt := h.writePos_lt
  len_le := h.len_le
  writePos_eq := h.size_eq ▸ h.writePos_eq

namespace Fitted

theorem capacity_eq (h : ring.Fitted capacity) : ring.capacity = capacity := by
  rw [ByteRing.capacity, h.size_eq, Nat.add_sub_cancel]

theorem valid (h : ring.Fitted capacity) : ring.Valid where
  two_le_size := h.two_le_size
  readPos_lt := h.readPos_lt
  len_le := h.capacity_eq ▸ h.len_le
  writePos_eq := by rw [h.writePos_eq, Cursor.forward, h.size_eq]

/-- What moves lead to keeps the capacity and fits again. -/
theorem of_leads {left : ByteRing} (h : ring.Fitted capacity) (hleads : ring.Leads left) :
    left.Fitted capacity := by
  have hcapacity : left.capacity = capacity := hleads.capacity_eq.trans h.capacity_eq
  exact hcapacity ▸ (hleads.valid h.valid).fitted

end Fitted

theorem fitted_of_fifo {queue : Fifo} (h : ring.Valid) (hfifo : ring.fifo = queue) :
    ring.Fitted queue.capacity :=
  hfifo ▸ h.fitted

/-! ## Where the cursors meet -/

namespace Valid

theorem readPos_eq_slot (h : ring.Valid) : ring.readPos = ring.slot 0 :=
  (Cursor.forward_zero h.readPos_lt).symm

theorem slot_injective (h : ring.Valid) {m n : Nat} (hm : m < ring.storage.size)
    (hn : n < ring.storage.size) (heq : ring.slot m = ring.slot n) : m = n :=
  Cursor.forward_injective h.readPos_lt hm hn heq

theorem readPos_eq_writePos_iff (h : ring.Valid) :
    ring.readPos = ring.writePos ↔ ring.isEmpty = true := by
  have hwrite : ring.writePos = ring.slot ring.len := h.writePos_eq
  rw [isEmpty, beq_iff_eq, h.readPos_eq_slot, hwrite]
  constructor
  · intro heq
    exact (h.slot_injective h.size_pos h.len_lt heq).symm
  · intro hzero
    rw [hzero]

theorem isEmpty_eq_false_of_isFull (h : ring.Valid) (hfull : ring.isFull = true) :
    ring.isEmpty = false := by
  have htwo := h.two_le_size
  have hlen : ring.len = ring.storage.size - 1 := isFull_iff.1 hfull
  rw [isEmpty_eq_false_iff]
  omega

/-- The slot behind the write cursor is the read cursor's exactly where one slot is spare. -/
theorem after_writePos_eq_readPos_iff (h : ring.Valid) :
    (ring.writePos + 1) % (ring.capacity + 1) = ring.readPos ↔ ring.isFull = true := by
  have hsize := h.size_eq
  have hlen := h.len_le
  have hafter : (ring.writePos + 1) % (ring.capacity + 1) = ring.slot (ring.len + 1) := by
    rw [← hsize, h.writePos_eq]
    exact Cursor.forward_forward ring.storage.size ring.readPos ring.len 1
  have hturn : ring.slot (ring.capacity + 1) = ring.readPos := by
    rw [slot, ← hsize, Cursor.forward, Nat.add_mod_right, Nat.mod_eq_of_lt h.readPos_lt]
  rw [isFull, beq_iff_eq, hafter]
  constructor
  · intro heq
    rcases Nat.lt_or_ge ring.len ring.capacity with hroom | hfull
    · -- a second spare slot would separate the cursors
      rw [h.readPos_eq_slot] at heq
      cases h.slot_injective (by omega) h.size_pos heq
    · omega
  · intro hfull
    rw [hfull, hturn]

end Valid

/-- Building fits a ring to the capacity it is built for, every request keeps it fitted to that
capacity, and in every ring that can come about the cursors tell an empty ring and a full one
apart. -/
theorem cursors_stay_fitted (memory : Memory) :
    (∀ (recipe : Recipe) (ring : ByteRing), recipe.make memory = .ok ring →
      ∃ queue, recipe.queue? = some queue ∧ ring.Fitted queue.capacity) ∧
    (∀ (capacity : Nat) (source ring : ByteRing) (derivation : Derivation),
      source.Fitted capacity → source.derive memory derivation = .ok ring →
      ring.Fitted (derivation.queue source.fifo).capacity) ∧
    (∀ (capacity : Nat) (ring : ByteRing) (call : Call), ring.Fitted capacity →
      (ring.answer memory call).2.Fitted capacity) ∧
    (∀ (capacity capacity' : Nat) (source target : ByteRing), source.Fitted capacity →
      target.Fitted capacity' →
      (source.pour target).source.Fitted capacity ∧
        (source.pour target).target.Fitted capacity') ∧
    ∀ ring : ByteRing, ring.Reachable →
      ring.Fitted ring.capacity ∧
      (ring.readPos = ring.writePos ↔ ring.isEmpty = true) ∧
      (ring.isFull = true → ring.readPos ≠ ring.writePos) ∧
      ((ring.writePos + 1) % (ring.capacity + 1) = ring.readPos ↔ ring.isFull = true) := by
  refine ⟨?_, ?_, ?_, ?_, ?_⟩
  · intro recipe ring hmake
    obtain ⟨queue, hqueue, hfits, rfl⟩ := fresh_of_make hmake
    exact ⟨queue, hqueue, fitted_of_fifo (valid_fresh hfits) (fifo_fresh hfits)⟩
  · intro capacity source ring derivation hsource hderive
    obtain ⟨hvalid, hfifo⟩ := hsource.valid.derive hderive
    exact fitted_of_fifo hvalid hfifo
  · intro capacity ring call hring
    exact hring.of_leads (hring.valid.leads_answer memory call)
  · intro capacity capacity' source target hsource htarget
    obtain ⟨hleads, hleads'⟩ :=
      hsource.valid.leads_pourBy htarget.valid (List.replicate blockSize 0)
    exact ⟨hsource.of_leads hleads, htarget.of_leads hleads'⟩
  · intro ring hreach
    have hvalid := hreach.valid
    refine ⟨hvalid.fitted, hvalid.readPos_eq_writePos_iff, ?_, hvalid.after_writePos_eq_readPos_iff⟩
    intro hfull hmeet
    rw [hvalid.readPos_eq_writePos_iff, hvalid.isEmpty_eq_false_of_isFull hfull] at hmeet
    cases hmeet

/-- A ring of two bytes is filled, read from and filled again: its write cursor has gone round, and
the slot behind it is the read cursor's. -/
theorem cursors_stay_fitted_wrapped :
    ∃ ring : ByteRing, ring.Reachable ∧ ring.readPos = 2 ∧ ring.writePos = 1 ∧
      ring.isFull = true ∧ ring.Fitted 2 ∧ ring.readPos ≠ ring.writePos ∧
      (ring.writePos + 1) % (ring.capacity + 1) = ring.readPos := by
  have hmake : (Recipe.ofBytes [7, 8]).make .ordinary = .ok (ofBytes [7, 8]) := rfl
  have hreach : (ofBytes [7, 8]).Reachable := .made hmake
  obtain ⟨hbuilt, hderived, hanswered, hpoured, hreached⟩ := cursors_stay_fitted .ordinary
  obtain ⟨queue, hqueue, hfitted⟩ := hbuilt _ _ hmake
  cases hqueue
  have hreach' := (hreach.answered .ordinary (.update (.take 2))).answered .ordinary
    (.update (.pushSlice [9, 10]))
  obtain ⟨-, -, hfull, hspare⟩ := hreached _ hreach'
  exact ⟨_, hreach', rfl, rfl, rfl, hanswered _ _ _ (hanswered _ _ _ hfitted), hfull rfl,
    hspare.2 rfl⟩

end CyclicQueue.ByteRing
