import CyclicQueue.ByteRing.Transfer
import CyclicQueue.Proofs.ByteRing.Transitions

/-!
# No byte of a stream is lost

Every write takes a beginning of what it is offered and every read hands over a beginning of what is
held, as long as either can be. So in every run the bytes held at first and those taken in are the
bytes handed over and those held at last, in one order.
-/

namespace CyclicQueue.ByteRing

variable {ring : ByteRing}

/-! ## One transfer -/

/-- What a single write and a single read do to a ring. -/
structure Flows (ring : ByteRing) : Prop where
  write_ok : ∀ bytes, (ring.write bytes).1 = .ok (min bytes.length ring.free)
  toList_write : ∀ bytes,
    (ring.write bytes).2.toList = ring.toList ++ bytes.take (min bytes.length ring.free)
  write_zero : ∀ bytes, (ring.write bytes).1 = .ok 0 → bytes = [] ∨ ring.isFull = true
  read_ok : ∀ buffer, (ring.read buffer).outcome = .ok (min buffer.length ring.len)
  buffer_read : ∀ buffer, (ring.read buffer).buffer =
    ring.toList.take (min buffer.length ring.len) ++ buffer.drop (min buffer.length ring.len)
  toList_read : ∀ buffer,
    (ring.read buffer).ring.toList = ring.toList.drop (min buffer.length ring.len)
  read_zero : ∀ buffer, (ring.read buffer).outcome = .ok 0 → buffer = [] ∨ ring.isEmpty = true

theorem Valid.isFull_of_free (h : ring.Valid) (hfree : ring.free = 0) : ring.isFull = true := by
  have hlen := h.len_le
  rw [isFull, beq_iff_eq]
  exact Nat.le_antisymm hlen (Nat.sub_eq_zero_iff_le.1 hfree)

theorem take_min_free (ring : ByteRing) (bytes : List UInt8) :
    bytes.take (min bytes.length ring.free) = bytes.take ring.free := by
  rw [Nat.min_comm, ← List.take_eq_take_min]

theorem Valid.flows (h : ring.Valid) : ring.Flows where
  write_ok bytes := by rw [h.write_eq]
  toList_write bytes := by
    rw [h.write_eq, take_min_free]
    exact h.toList_append (List.length_take_le _ _)
  write_zero bytes hzero := by
    rw [h.write_eq] at hzero
    rcases Nat.min_eq_zero_iff.1 (Except.ok.inj hzero) with hnil | hfree
    · exact .inl (List.eq_nil_of_length_eq_zero hnil)
    · exact .inr (h.isFull_of_free hfree)
  read_ok buffer := by rw [h.read_eq]
  buffer_read buffer := by
    have hleft : buffer.drop ring.len = buffer.drop (min buffer.length ring.len) := by
      apply List.drop_eq_drop_iff.2
      omega
    have hmoved : ring.toList.take buffer.length =
        ring.toList.take (min buffer.length ring.len) := by
      rw [List.take_eq_take_min, h.length_toList]
    rw [h.read_eq]
    exact congrArg₂ _ hmoved hleft
  toList_read buffer := by
    rw [h.read_eq]
    exact h.toList_advance (Nat.min_le_right _ _)
  read_zero buffer hzero := by
    rw [h.read_eq] at hzero
    rcases Nat.min_eq_zero_iff.1 (Except.ok.inj hzero) with hnil | hempty
    · exact .inl (List.eq_nil_of_length_eq_zero hnil)
    · exact .inr (beq_iff_eq.2 hempty)

theorem Valid.leads_transfer (h : ring.Valid) (step : Transfer) :
    ring.Leads (ring.transfer step).2 := by
  cases step with
  | write bytes => exact h.leads_write bytes
  | read buffer => exact h.leads_read buffer

theorem Valid.isOk_transfer (h : ring.Valid) (step : Transfer) :
    (ring.transfer step).1.outcome.isOk = true := by
  cases step with
  | write bytes =>
    simp only [transfer, h.flows.write_ok]
    rfl
  | read buffer =>
    simp only [transfer, h.flows.read_ok]
    rfl

/-- A transfer moves bytes from one side of the ring to the other and keeps their order. -/
theorem Valid.transfer_conserves (h : ring.Valid) (step : Transfer) :
    ring.toList ++ step.accepted (ring.transfer step).1 =
      step.delivered (ring.transfer step).1 ++ (ring.transfer step).2.toList := by
  have hflows := h.flows
  cases step with
  | write bytes =>
    simp only [transfer, hflows.write_ok, hflows.toList_write, Transfer.accepted,
      Transfer.delivered, List.nil_append]
  | read buffer =>
    have htaken : (ring.toList.take (min buffer.length ring.len)).length =
        min buffer.length ring.len := by
      rw [List.length_take, h.length_toList]
      omega
    simp only [transfer, hflows.read_ok, hflows.buffer_read, hflows.toList_read,
      Transfer.accepted, Transfer.delivered, List.append_nil, List.take_left' htaken,
      List.take_append_drop]

/-! ## Runs -/

theorem Valid.leads_transfers (h : ring.Valid) (steps : List Transfer) :
    ring.Leads (ring.transfers steps).2 := by
  induction steps generalizing ring with
  | nil => exact .refl
  | cons step steps ih =>
    have hstep := h.leads_transfer step
    exact hstep.trans (ih (hstep.valid h))

theorem Valid.isOk_transfers (h : ring.Valid) (steps : List Transfer) :
    ∀ answer ∈ (ring.transfers steps).1, answer.outcome.isOk = true := by
  induction steps generalizing ring with
  | nil =>
    intro answer hanswer
    cases hanswer
  | cons step steps ih =>
    rintro answer (_ | ⟨_, hlater⟩)
    · exact h.isOk_transfer step
    · exact ih ((h.leads_transfer step).valid h) answer hlater

theorem Valid.transfers_conserve (h : ring.Valid) (steps : List Transfer) :
    ring.toList ++ Transfer.allAccepted steps (ring.transfers steps).1 =
      Transfer.allDelivered steps (ring.transfers steps).1 ++
        (ring.transfers steps).2.toList := by
  induction steps generalizing ring with
  | nil => exact List.append_nil _
  | cons step steps ih =>
    have hfirst := h.transfer_conserves step
    have hrest := ih ((h.leads_transfer step).valid h)
    rw [transfers_cons, Transfer.allAccepted_cons, Transfer.allDelivered_cons,
      ← List.append_assoc, hfirst, List.append_assoc, hrest, List.append_assoc]

/-- However writes and reads take turns, none of them fails, each moves as many bytes as it can, and
at every point of the run all bytes are accounted for in their order. -/
theorem transfers_lose_nothing (h : ring.Reachable) (steps : List Transfer) :
    (∀ answer ∈ (ring.transfers steps).1, answer.outcome.isOk = true) ∧
      (ring.transfers steps).2.Flows ∧
      (ring.transfers steps).2.capacity = ring.capacity ∧
      ring.toList ++ Transfer.allAccepted steps (ring.transfers steps).1 =
        Transfer.allDelivered steps (ring.transfers steps).1 ++
          (ring.transfers steps).2.toList := by
  have hleads := h.valid.leads_transfers steps
  exact ⟨h.valid.isOk_transfers steps, (hleads.valid h.valid).flows, hleads.capacity_eq,
    h.valid.transfers_conserve steps⟩

/-- A ring of three bytes that holds one. The second write is cut short, so is the second read, and
the contents have gone round the end of the storage. -/
theorem transfers_lose_nothing_cut_short :
    Reachable (filled 3 [1] []) ∧
      ((filled 3 [1] []).transfers [.write [2, 3], .read [0, 0], .write [4, 5, 6],
        .read [9, 9, 9, 9]]).2.Flows ∧
      [1] ++ ([2, 3] ++ [4, 5]) = [1, 2] ++ [3, 4, 5] ++ toList ((filled 3 [1] []).transfers
        [.write [2, 3], .read [0, 0], .write [4, 5, 6], .read [9, 9, 9, 9]]).2 := by
  have hmake : (Recipe.ofBytesWithCapacity [1] 3).make .ordinary = .ok (filled 3 [1] []) := rfl
  have hreach : Reachable (filled 3 [1] []) := .made hmake
  obtain ⟨-, hflows, -, hbytes⟩ := transfers_lose_nothing hreach [.write [2, 3], .read [0, 0],
    .write [4, 5, 6], .read [9, 9, 9, 9]]
  exact ⟨hreach, hflows, hbytes⟩

end CyclicQueue.ByteRing
