import CyclicQueue.ByteRing.Turn
import CyclicQueue.Proofs.ByteRing.Bulk
import CyclicQueue.Proofs.ByteRing.Ranges

/-!
# What the loops over a stream leave behind

A turn that moves nothing ends a loop, and every other turn leaves less to be moved, so each loop
ends. Unlike a request for many bytes, a loop that fails has moved all that it could.
-/

namespace CyclicQueue

/-- From a state that is `kept`, a turn either gives the `result` that was to come, or keeps the
next state, leaves it a smaller `size` and leaves the same result to come. -/
structure Progress {State Result : Type} (turn : State → State ⊕ Result) (kept : State → Prop)
    (size : State → Nat) (result : State → Result) : Prop where
  last : ∀ state outcome, kept state → turn state = .inr outcome → outcome = result state
  more : ∀ state next, kept state → turn state = .inl next →
    kept next ∧ size next < size state ∧ result next = result state

theorem Progress.ends {State Result : Type} {turn : State → State ⊕ Result} {kept : State → Prop}
    {size : State → Nat} {result : State → Result} (h : Progress turn kept size result)
    (state : State) (hkept : kept state) :
    ∃ turns ≤ size state + 1, Ends turn state turns (result state) := by
  induction hn : size state using Nat.strongRecOn generalizing state with
  | _ n ih =>
    cases hturn : turn state with
    | inr outcome =>
      obtain rfl := h.last state outcome hkept hturn
      exact ⟨1, Nat.le_add_left 1 n, .last hturn⟩
    | inl next =>
      obtain ⟨hnext, hless, hsame⟩ := h.more state next hkept hturn
      obtain ⟨turns, hle, hends⟩ := ih (size next) (hn ▸ hless) next hnext rfl
      exact ⟨turns + 1, by omega, .more hturn (hsame ▸ hends)⟩

namespace ByteRing

variable {ring source target : ByteRing}

/-! ## Writing everything -/

namespace WriteLoop

def result (loop : WriteLoop) : Except StreamFault Unit × ByteRing :=
  loop.ring.writeAll loop.rest

theorem progress : Progress turn (fun _ => True) (fun loop => loop.rest.length) result where
  last := by
    rintro ⟨ring, rest⟩ outcome - hturn
    unfold turn at hturn
    rw [result, writeAll]
    simp only at hturn ⊢
    split at hturn
    · next hnil =>
      cases hturn
      rw [dif_pos hnil]
    · next hne =>
      rw [dif_neg hne]
      rcases hwrite : ring.write rest with ⟨fault | count, left⟩
      · rw [hwrite] at hturn
        cases hturn
        rfl
      · rw [hwrite] at hturn
        cases count with
        | zero =>
          cases hturn
          rfl
        | succ count => cases hturn
  more := by
    rintro ⟨ring, rest⟩ next - hturn
    unfold turn at hturn
    simp only at hturn
    split at hturn
    · cases hturn
    · next hne =>
      split at hturn
      · cases hturn
      · cases hturn
      · next hwrite =>
        cases hturn
        have hpos := List.length_pos_iff.2 hne
        refine ⟨trivial, ?_, ?_⟩
        · simp only [List.length_drop]
          omega
        · rw [result, result, writeAll.eq_def ring rest, dif_neg hne, hwrite]

end WriteLoop

/-! ## Filling a buffer -/

namespace FillLoop

def result (loop : FillLoop) : Reading (Except StreamFault Unit) :=
  let rest := loop.ring.readExact loop.rest
  ⟨rest.outcome, loop.front ++ rest.buffer, rest.ring⟩

theorem progress : Progress turn (fun _ => True) (fun loop => loop.rest.length) result where
  last := by
    rintro ⟨ring, front, rest⟩ outcome - hturn
    unfold turn at hturn
    rw [result, readExact]
    simp only at hturn ⊢
    split at hturn
    · next hnil =>
      cases hturn
      rw [dif_pos hnil, List.append_nil]
    · next hne =>
      rw [dif_neg hne]
      cases hread : (ring.read rest).outcome with
      | error fault =>
        rw [hread] at hturn
        cases hturn
        rfl
      | ok count =>
        rw [hread] at hturn
        cases count with
        | zero =>
          cases hturn
          rfl
        | succ count => cases hturn
  more := by
    rintro ⟨ring, front, rest⟩ next - hturn
    unfold turn at hturn
    simp only at hturn
    split at hturn
    · cases hturn
    · next hne =>
      split at hturn
      · cases hturn
      · cases hturn
      · next hread =>
        cases hturn
        have hpos := List.length_pos_iff.2 hne
        refine ⟨trivial, ?_, ?_⟩
        · simp only [List.length_drop, length_buffer_read]
          omega
        · simp only [result]
          rw [readExact.eq_def ring rest, dif_neg hne]
          simp only [hread, List.append_assoc]

end FillLoop

/-! ## Reading up to the end -/

namespace DrainLoop

def result (loop : DrainLoop) : Except StreamFault (List UInt8) × ByteRing :=
  (.ok (loop.out ++ loop.ring.toList), loop.ring.advance loop.ring.len)

/-- However many bytes are asked for in each turn, as long as it is at least one. -/
theorem progress {probes : Nat → List UInt8} (hprobes : ∀ taken, probes taken ≠ []) :
    Progress (turn probes) (fun loop => loop.ring.Valid) (fun loop => loop.ring.len) result where
  last := by
    rintro ⟨taken, ring, out⟩ outcome hvalid hturn
    have hpos := List.length_pos_iff.2 (hprobes taken)
    simp only [turn, Valid.read_eq hvalid] at hturn
    split at hturn
    · next hout => cases hout
    · next hout =>
      cases hturn
      have hzero : min (probes taken).length ring.len = 0 := Except.ok.inj hout
      have hlen : ring.len = 0 := by omega
      simp only at hvalid
      simp only [result]
      rw [hzero, hlen, hvalid.toList_eq_nil_iff.2 hlen, List.append_nil]
    · cases hturn
  more := by
    rintro ⟨taken, ring, out⟩ next hvalid hturn
    simp only [turn, Valid.read_eq hvalid] at hturn
    split at hturn
    · cases hturn
    · cases hturn
    · next count hout =>
      cases hturn
      have hcount : min (probes taken).length ring.len = count + 1 := Except.ok.inj hout
      simp only [result] at hvalid ⊢
      have hlen := hvalid.length_toList
      have hle : count + 1 ≤ ring.len := by omega
      have hmet : ring.toList.take (probes taken).length = ring.toList.take (count + 1) :=
        List.take_eq_take_iff.2 (by omega)
      rw [hvalid.take_read hcount, hcount, hmet]
      refine ⟨hvalid.advance hle, ?_, ?_⟩
      · rw [len_advance]
        omega
      · rw [hvalid.toList_advance hle, List.append_assoc, List.take_append_drop, advance_advance,
          len_advance, Nat.add_sub_cancel' hle]

end DrainLoop

/-! ## Pouring -/

namespace PourLoop

def result (block : List UInt8) (loop : PourLoop) : Pouring :=
  let rest := pourBy block loop.source loop.target
  { rest with outcome := rest.outcome.map (loop.poured + ·) }

theorem result_zero (block : List UInt8) (source target : ByteRing) :
    result block ⟨source, target, 0⟩ = pourBy block source target := by
  rw [result]
  cases pourBy block source target with
  | mk outcome left filled => cases outcome <;> simp [Except.map]

theorem progress (block : List UInt8) :
    Progress (turn block) (fun loop => loop.source.Valid) (fun loop => loop.source.len)
      (result block) where
  last := by
    rintro ⟨source, target, poured⟩ outcome hvalid hturn
    simp only at hvalid
    rw [result, hvalid.pourBy_eq]
    simp only [turn, hvalid.read_eq] at hturn
    split at hturn
    · next hout => cases hout
    · next hout =>
      cases hturn
      have hzero : min block.length source.len = 0 := Except.ok.inj hout
      rw [if_pos hzero, hzero, hvalid.advance_zero]
      rfl
    · next count hout =>
      have hcount : min block.length source.len = count + 1 := Except.ok.inj hout
      rw [hvalid.take_read hcount] at hturn
      rw [if_neg (by omega)]
      split at hturn
      · next fault filled hwrite =>
        cases hturn
        simp only [hwrite]
        rfl
      · cases hturn
  more := by
    rintro ⟨source, target, poured⟩ next hvalid hturn
    simp only at hvalid
    simp only [turn, hvalid.read_eq] at hturn
    split at hturn
    · cases hturn
    · cases hturn
    · next count hout =>
      have hcount : min block.length source.len = count + 1 := Except.ok.inj hout
      rw [hvalid.take_read hcount] at hturn
      split at hturn
      · cases hturn
      · next filled hwrite =>
        cases hturn
        refine ⟨hvalid.advance (Nat.min_le_right _ _), ?_, ?_⟩
        · simp only [len_advance]
          omega
        · simp only [result]
          rw [hvalid.pourBy_eq, if_neg (by omega)]
          simp only [hwrite, hcount, map_add_map_add]

end PourLoop

/-- How many bytes pouring takes off a source of `held` bytes, `size` at a time, where the target
has room for `room`. The block that no longer fits is taken off whole. -/
def takenOff (size held room : Nat) : Nat :=
  if held ≤ room then held else min held (size * (room / size + 1))

theorem takenOff_of_le {size held room : Nat} (h : held ≤ room) : takenOff size held room = held :=
  if_pos h

theorem takenOff_of_lt {size held room : Nat} (h : room < held) :
    takenOff size held room = min held (size * (room / size + 1)) :=
  if_neg (Nat.not_le.2 h)

theorem takenOff_of_one_block {size held room : Nat} (h : held ≤ size) :
    takenOff size held room = held := by
  rcases Nat.lt_or_ge room held with hlack | hfits
  · rw [takenOff_of_lt hlack]
    exact Nat.min_eq_left (Nat.le_trans h (Nat.le_mul_of_pos_right size (Nat.succ_pos _)))
  · exact takenOff_of_le hfits

/-- A block that fits is followed by what is taken off the rest. -/
theorem takenOff_of_block_le {size held room : Nat} (hsize : 0 < size)
    (h : min size held ≤ room) :
    takenOff size held room =
      min size held + takenOff size (held - min size held) (room - min size held) := by
  rcases Nat.lt_or_ge room held with hlack | hfits
  · have hlong : size ≤ held := by omega
    rw [Nat.min_eq_left hlong] at h ⊢
    have hblocks : room / size = (room - size) / size + 1 := Nat.div_eq_sub_div hsize h
    rw [takenOff_of_lt hlack, takenOff_of_lt (by omega), hblocks,
      Nat.mul_succ size ((room - size) / size + 1)]
    omega
  · rw [takenOff_of_le hfits, takenOff_of_le (by omega)]
    omega

theorem takenOff_of_lt_block {size held room : Nat} (h : room < min size held) :
    takenOff size held room = min size held := by
  rw [takenOff_of_lt (by omega), Nat.div_eq_of_lt (by omega), Nat.zero_add, Nat.mul_one,
    Nat.min_comm]

/-- What fits of a first lot and then of the rest is what fits of all. -/
theorem Valid.append_take_append (h : ring.Valid) (bytes : List UInt8) {count : Nat}
    (hcount : count ≤ ring.free) :
    (ring.append (bytes.take count)).append ((bytes.drop count).take (ring.free - count)) =
      ring.append (bytes.take ring.free) := by
  have hall : bytes.take count ++ (bytes.drop count).take (ring.free - count) =
      bytes.take ring.free := by
    rw [← List.take_add, Nat.add_sub_cancel' hcount]
  have hfit : (bytes.take ring.free).length ≤ ring.free := List.length_take_le _ _
  rw [← hall] at hfit ⊢
  exact h.append_append hfit

/-- Pouring fills the target as one write of everything would, and tells whether everything fits. -/
theorem Valid.pourBy_closed (hsource : source.Valid) (htarget : target.Valid) {block : List UInt8}
    (hblock : block ≠ []) :
    pourBy block source target =
      ⟨if source.len ≤ target.free then .ok source.len else .error .notAllWritten,
        source.advance (takenOff block.length source.len target.free),
        target.append (source.toList.take target.free)⟩ := by
  induction hn : source.len using Nat.strongRecOn generalizing source target with
  | _ n ih =>
    have hlen := hsource.length_toList
    have hpos := List.length_pos_iff.2 hblock
    obtain ⟨count, hcount⟩ : ∃ count, min block.length n = count := ⟨_, rfl⟩
    have hread : source.toList.take block.length = source.toList.take count :=
      List.take_eq_take_iff.2 (by omega)
    have hlength : (source.toList.take count).length = count := by
      rw [List.length_take]
      omega
    rw [hsource.pourBy_eq, hn, hread, hcount]
    by_cases hzero : count = 0
    · obtain rfl : n = 0 := by omega
      rw [if_pos hzero, if_pos (Nat.zero_le _), hsource.toList_eq_nil_iff.2 hn, List.take_nil,
        htarget.append_nil, takenOff_of_le (Nat.zero_le _), hsource.advance_zero]
    · have hheld : count ≤ source.len := by omega
      rw [if_neg hzero, htarget.writeAll_eq, hlength, List.take_take]
      by_cases hfits : count ≤ target.free
      · have hvalid : (target.append (source.toList.take count)).Valid :=
          htarget.append (hlength.symm ▸ hfits)
        have hfree : (target.append (source.toList.take count)).free = target.free - count := by
          rw [free_append, hlength]
        have hrest := ih (n - count) (by omega) (hsource.advance hheld) hvalid
          (by rw [len_advance, hn])
        have hoff : takenOff block.length n target.free = _ :=
          takenOff_of_block_le hpos (hcount.symm ▸ hfits)
        rw [hfree, hsource.toList_advance hheld, htarget.append_take_append _ hfits,
          advance_advance] at hrest
        rw [hcount] at hoff
        rw [if_pos hfits, Nat.min_eq_right hfits]
        simp only [hrest, hoff]
        congr 1
        by_cases hall : n ≤ target.free
        · rw [if_pos hall, if_pos (by omega), Except.map, Nat.sub_add_cancel (by omega)]
        · rw [if_neg hall, if_neg (by omega)]
          rfl
      · rw [if_neg hfits, if_neg (by omega), takenOff_of_lt_block (by omega), hcount,
          Nat.min_eq_left (Nat.le_of_not_le hfits)]

/-- What a loop that writes everything does. -/
structure WritesAll (ring : ByteRing) (bytes : List UInt8) : Prop where
  ends : ∃ turns ≤ bytes.length + 1,
    Ends WriteLoop.turn ⟨ring, bytes⟩ turns (ring.writeAll bytes)
  ok_iff : (ring.writeAll bytes).1 = .ok () ↔ bytes.length ≤ ring.free
  error_iff : (ring.writeAll bytes).1 = .error .notAllWritten ↔ ring.free < bytes.length
  toList_eq :
    (ring.writeAll bytes).2.toList = ring.toList ++ bytes.take (min bytes.length ring.free)
  capacity_eq : (ring.writeAll bytes).2.capacity = ring.capacity
  /-- Where the loop succeeds, it leaves the storage and the cursors of one request. -/
  pushSlice_eq : (ring.writeAll bytes).1 = .ok () →
    ring.pushSlice bytes = (.ok (), (ring.writeAll bytes).2)

/-- What a loop that fills a buffer does. -/
structure FillsBuffer (ring : ByteRing) (buffer : List UInt8) : Prop where
  ends : ∃ turns ≤ buffer.length + 1,
    Ends FillLoop.turn ⟨ring, [], buffer⟩ turns (ring.readExact buffer)
  ok_iff : (ring.readExact buffer).outcome = .ok () ↔ buffer.length ≤ ring.len
  error_iff : (ring.readExact buffer).outcome = .error .endsEarly ↔ ring.len < buffer.length
  buffer_of_ok : buffer.length ≤ ring.len →
    (ring.readExact buffer).buffer = ring.toList.take buffer.length
  toList_of_ok : buffer.length ≤ ring.len →
    (ring.readExact buffer).ring.toList = ring.toList.drop buffer.length
  buffer_of_error : ring.len < buffer.length →
    (ring.readExact buffer).buffer = ring.toList ++ buffer.drop ring.len
  toList_of_error : ring.len < buffer.length → (ring.readExact buffer).ring.toList = []

/-- What a loop that reads up to the end does, whatever it found in `out` and however many bytes it
asks for in each turn. -/
structure Drains (ring : ByteRing) : Prop where
  ends : ∀ (probes : Nat → List UInt8) (out : List UInt8), (∀ taken, probes taken ≠ []) →
    ∃ turns ≤ ring.len + 1, Ends (DrainLoop.turn probes) ⟨0, ring, out⟩ turns
      (.ok (out ++ ring.toList), ring.readToEnd.2)
  readToEnd_eq : ring.readToEnd.1 = .ok ring.toList
  toList_eq : ring.readToEnd.2.toList = []

/-- What a loop that pours `source` into another ring does. -/
structure Pours (source target : ByteRing) : Prop where
  ends : ∃ turns ≤ source.len + 1,
    Ends (PourLoop.turn (List.replicate blockSize 0)) ⟨source, target, 0⟩ turns
      (source.pour target)
  ok_iff : (source.pour target).outcome = .ok source.len ↔ source.len ≤ target.free
  error_iff : (source.pour target).outcome = .error .notAllWritten ↔ target.free < source.len
  target_eq : (source.pour target).target.toList =
    target.toList ++ source.toList.take (min source.len target.free)
  writeAll_eq : (source.pour target).target = (target.writeAll source.toList).2
  source_of_ok : source.len ≤ target.free → (source.pour target).source.toList = []
  /-- The block that does not fit any more is lost as a whole. -/
  source_of_error : target.free < source.len → (source.pour target).source.toList =
    source.toList.drop (blockSize * (target.free / blockSize + 1))
  /-- A source of one block is read once, also where the block does not fit. -/
  one_block : source.len ≤ blockSize → (source.pour target).source.toList = [] ∧
    (source.pour target).source = (source.read (List.replicate blockSize 0)).ring

theorem Valid.toList_advance_len (h : ring.Valid) : (ring.advance ring.len).toList = [] := by
  rw [h.toList_advance (Nat.le_refl _), ← h.length_toList, List.drop_length]

theorem Valid.writesAll (h : ring.Valid) (bytes : List UInt8) : ring.WritesAll bytes where
  ends := WriteLoop.progress.ends ⟨ring, bytes⟩ trivial
  ok_iff := by
    rw [h.writeAll_eq]
    simp
  error_iff := by
    rw [h.writeAll_eq]
    simp
  toList_eq := by
    rw [h.writeAll_eq, h.toList_append (List.length_take_le _ _), Nat.min_comm,
      ← List.take_eq_take_min]
  capacity_eq := by rw [h.writeAll_eq, capacity_append]
  pushSlice_eq := by
    intro hok
    rw [h.writeAll_eq] at hok ⊢
    have hfit : bytes.length ≤ ring.free := by simpa using hok
    rw [h.pushSlice_eq hfit, List.take_of_length_le hfit]

theorem Valid.fillsBuffer (h : ring.Valid) (buffer : List UInt8) : ring.FillsBuffer buffer where
  ends := FillLoop.progress.ends ⟨ring, [], buffer⟩ trivial
  ok_iff := by
    rw [h.readExact_eq]
    simp
  error_iff := by
    rw [h.readExact_eq]
    simp
  buffer_of_ok := by
    intro hle
    rw [h.readExact_eq, List.drop_of_length_le hle, List.append_nil]
  toList_of_ok := by
    intro hle
    rw [h.readExact_eq, Nat.min_eq_left hle]
    exact h.toList_advance hle
  buffer_of_error := by
    intro hlt
    have hlen := h.length_toList
    rw [h.readExact_eq, List.take_of_length_le (by omega)]
  toList_of_error := by
    intro hlt
    rw [h.readExact_eq, Nat.min_eq_right (Nat.le_of_lt hlt)]
    exact h.toList_advance_len

theorem Valid.drains (h : ring.Valid) : ring.Drains where
  ends probes out hprobes := by
    rw [h.readToEnd_eq]
    exact (DrainLoop.progress hprobes).ends ⟨0, ring, out⟩ h
  readToEnd_eq := by rw [h.readToEnd_eq]
  toList_eq := by
    rw [h.readToEnd_eq]
    exact h.toList_advance_len

theorem Valid.pour_eq (hsource : source.Valid) (htarget : target.Valid) :
    source.pour target =
      ⟨if source.len ≤ target.free then .ok source.len else .error .notAllWritten,
        source.advance (takenOff blockSize source.len target.free),
        target.append (source.toList.take target.free)⟩ := by
  have hblock : List.replicate blockSize (0 : UInt8) ≠ [] :=
    List.ne_nil_of_length_pos (by rw [List.length_replicate]; decide)
  rw [ByteRing.pour, hsource.pourBy_closed htarget hblock, List.length_replicate]

theorem Valid.pours (hsource : source.Valid) (htarget : target.Valid) : source.Pours target where
  ends := by
    have hends := (PourLoop.progress (List.replicate blockSize 0)).ends ⟨source, target, 0⟩ hsource
    rwa [PourLoop.result_zero] at hends
  ok_iff := by
    rw [hsource.pour_eq htarget]
    simp
  error_iff := by
    rw [hsource.pour_eq htarget]
    simp
  target_eq := by
    rw [hsource.pour_eq htarget, ← hsource.length_toList, Nat.min_comm, ← List.take_eq_take_min]
    exact htarget.toList_append (List.length_take_le _ _)
  writeAll_eq := by rw [hsource.pour_eq htarget, htarget.writeAll_eq]
  source_of_ok := by
    intro hfits
    rw [hsource.pour_eq htarget, takenOff_of_le hfits]
    exact hsource.toList_advance_len
  source_of_error := by
    intro hlack
    have hlen := hsource.length_toList
    rw [hsource.pour_eq htarget, takenOff_of_lt hlack]
    simp only
    rw [hsource.toList_advance (Nat.min_le_left _ _), List.drop_eq_drop_iff]
    omega
  one_block := by
    intro hblock
    have hread : min (List.replicate blockSize (0 : UInt8)).length source.len = source.len := by
      rw [List.length_replicate, Nat.min_eq_right hblock]
    rw [hsource.pour_eq htarget, takenOff_of_one_block hblock, hsource.read_eq, hread]
    exact ⟨hsource.toList_advance_len, rfl⟩

/-- Each loop over a stream ends. Writing takes in what fits and fails if that is not all; filling a
buffer hands over what there is and fails if that is too little; reading up to the end hands over
everything; pouring does to the target what writing the whole source does. -/
theorem loops_move_what_fits (h : ring.Reachable) :
    (∀ bytes, ring.WritesAll bytes) ∧ (∀ buffer, ring.FillsBuffer buffer) ∧ ring.Drains ∧
      ∀ target : ByteRing, target.Reachable → ring.Pours target := by
  have hvalid := h.valid
  refine ⟨hvalid.writesAll, hvalid.fillsBuffer, hvalid.drains, ?_⟩
  intro target htarget
  exact hvalid.pours htarget.valid

/-- Three bytes are held round the end of a storage for four. One byte too many is written, a buffer
of five is filled, and three bytes are poured into a ring for two. -/
theorem loops_move_what_fits_wrapped :
    bent.Reachable ∧ (blank 2).Reachable ∧ ([0] : List UInt8) ≠ [] ∧
      (bent.writeAll [7, 8]).1 = .error .notAllWritten ∧
      (bent.writeAll [7, 8]).2.toList = [10, 20, 30, 7] ∧
      bent.pushSlice [7] = (.ok (), (bent.writeAll [7]).2) ∧
      (bent.readExact [0, 0, 0, 0, 0]).outcome = .error .endsEarly ∧
      (bent.readExact [0, 0, 0, 0, 0]).buffer = [10, 20, 30, 0, 0] ∧
      (∃ turns ≤ 4, Ends (DrainLoop.turn fun _ => [0]) ⟨0, bent, [5]⟩ turns
        (.ok [5, 10, 20, 30], bent.readToEnd.2)) ∧
      (bent.pour (blank 2)).outcome = .error .notAllWritten ∧
      (bent.pour (blank 2)).source.toList = [] ∧
      (bent.pour (blank 2)).target.toList = [10, 20] := by
  have hblank : (blank 2).Reachable := @Reachable.made .ordinary (.withCapacity 2) _ rfl
  obtain ⟨hwrites, hfills, hdrains, hpours⟩ := loops_move_what_fits reachable_bent
  have hlong := hwrites [7, 8]
  have hshort := hwrites [7]
  have hfive := hfills [0, 0, 0, 0, 0]
  have hpour := hpours (blank 2) hblank
  refine ⟨reachable_bent, hblank, by decide, hlong.error_iff.2 (by decide), hlong.toList_eq,
    hshort.pushSlice_eq (hshort.ok_iff.2 (by decide)), hfive.error_iff.2 (by decide),
    hfive.buffer_of_error (by decide), ?_, hpour.error_iff.2 (by decide),
    (hpour.one_block (by decide)).1, hpour.target_eq⟩
  exact hdrains.ends (fun _ => [0]) [5] fun _ => by decide

end ByteRing

end CyclicQueue
