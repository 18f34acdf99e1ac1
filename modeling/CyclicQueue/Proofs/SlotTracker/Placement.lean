import CyclicQueue.Proofs.SlotTracker.Cursors
import CyclicQueue.SlotTracker.Sight

/-!
# Where a tracker stands only turns its slots

Two trackers on one number of slots that hold as many elements stand apart by a turn of the cycle.
They accept and refuse the same moves, and every slot that one of them names is the other's turned on
by as much. The turn changes only where one of them is emptied and goes back to slot 0.
-/

namespace CyclicQueue.SlotTracker

variable {a b tracker : SlotTracker} {turn : Nat}

/-- Two trackers on as many slots that hold as many elements. -/
structure Level (a b : SlotTracker) : Prop where
  left : a.Valid
  right : b.Valid
  capacity_eq : b.capacity = a.capacity
  len_eq : b.len = a.len

/-- The second tracker stands `turn` slots further on than the first one. -/
structure Turned (turn : Nat) (a b : SlotTracker) : Prop extends Level a b where
  first_eq : b.first = Cursor.forward a.capacity a.first turn

theorem Level.maxLen_eq (h : a.Level b) : b.maxLen = a.maxLen := by
  rw [maxLen, h.capacity_eq, maxLen]

theorem Level.exists_turned (h : a.Level b) : ∃ turn < a.capacity, a.Turned turn b := by
  have hfirst : b.first < a.capacity := h.capacity_eq ▸ h.right.first_lt
  obtain ⟨turn, hturn, heq⟩ := Cursor.exists_forward_eq h.left.first_lt hfirst
  exact ⟨turn, hturn, h, heq.symm⟩

/-- Trackers that are built to hold as many elements stand apart by the slot that the second one is
built at. -/
theorem turned_of_build {capacity first len : Nat} {options options' : Options}
    (ha : build capacity 0 len options = .ok a) (hb : build capacity first len options' = .ok b) :
    a.Turned first b := by
  have hleft := valid_of_build ha
  have hright := valid_of_build hb
  obtain ⟨-, -, -, rfl⟩ := build_eq_ok_iff.1 ha
  obtain ⟨-, hfirst, -, rfl⟩ := build_eq_ok_iff.1 hb
  refine ⟨⟨hleft, hright, rfl, rfl⟩, ?_⟩
  rw [Cursor.forward, Nat.zero_add, Nat.mod_eq_of_lt hfirst]

theorem Level.settle (h : a.Level b) : a.settle.Level b.settle where
  left := h.left.settle
  right := h.right.settle
  capacity_eq := by rw [capacity_settle, capacity_settle, h.capacity_eq]
  len_eq := by rw [len_settle, len_settle, h.len_eq]

/-! ## Slots -/

theorem Valid.before_first (h : tracker.Valid) :
    tracker.before tracker.first = tracker.slotAt (tracker.capacity - 1) := by
  have hpos := h.capacity_pos
  rw [before, Cursor.back, slotAt, Cursor.forward]
  congr 1
  omega

/-- What is observed of a tracker that stands `turn` slots further on than another one. -/
structure Follows (capacity turn : Nat) (a b : Observation) : Prop where
  len_eq : b.sight.len = a.sight.len
  isEmpty_eq : b.isEmpty = a.isEmpty
  isFull_eq : b.isFull = a.isFull
  firstSlot?_eq : b.sight.firstSlot? = a.sight.firstSlot?.map fun slot => (slot + turn) % capacity
  lastSlot?_eq : b.sight.lastSlot? = a.sight.lastSlot?.map fun slot => (slot + turn) % capacity
  nextFirst?_eq : b.sight.nextFirst? = a.sight.nextFirst?.map fun slot => (slot + turn) % capacity
  nextLast?_eq : b.sight.nextLast? = a.sight.nextLast?.map fun slot => (slot + turn) % capacity

namespace Turned

theorem slotAt_eq (h : a.Turned turn b) (index : Nat) :
    b.slotAt index = Cursor.forward a.capacity (a.slotAt index) turn := by
  rw [slotAt, slotAt, h.capacity_eq, h.first_eq, Cursor.forward_forward, Cursor.forward_forward,
    Nat.add_comm]

theorem before_first_eq (h : a.Turned turn b) :
    b.before b.first = Cursor.forward a.capacity (a.before a.first) turn := by
  rw [h.left.before_first, h.right.before_first, h.slotAt_eq, h.capacity_eq]

theorem isEmpty_eq (h : a.Turned turn b) : b.isEmpty = a.isEmpty := by
  rw [h.left.isEmpty_eq, h.right.isEmpty_eq, h.len_eq]

theorem isFull_eq (h : a.Turned turn b) : b.isFull = a.isFull := by
  rw [h.left.isFull_eq, h.right.isFull_eq, h.len_eq, h.maxLen_eq]

theorem firstSlot?_eq (h : a.Turned turn b) :
    b.firstSlot? = a.firstSlot?.map fun slot => (slot + turn) % a.capacity := by
  rw [h.left.firstSlot?_eq, h.right.firstSlot?_eq, h.len_eq, h.slotAt_eq]
  split <;> rfl

theorem lastSlot?_eq (h : a.Turned turn b) :
    b.lastSlot? = a.lastSlot?.map fun slot => (slot + turn) % a.capacity := by
  rw [h.left.lastSlot?_eq, h.right.lastSlot?_eq, h.len_eq, h.slotAt_eq]
  split <;> rfl

theorem nextFirst?_eq (h : a.Turned turn b) :
    b.nextFirst? = a.nextFirst?.map fun slot => (slot + turn) % a.capacity := by
  rw [h.left.nextFirst?_eq, h.right.nextFirst?_eq, h.len_eq, h.maxLen_eq, h.before_first_eq,
    h.first_eq]
  split
  · rfl
  · split <;> rfl

theorem nextLast?_eq (h : a.Turned turn b) :
    b.nextLast? = a.nextLast?.map fun slot => (slot + turn) % a.capacity := by
  rw [h.left.nextLast?_eq, h.right.nextLast?_eq, h.len_eq, h.maxLen_eq, h.slotAt_eq]
  split <;> rfl

theorem follows (h : a.Turned turn b) {capacity : Nat} (hcapacity : a.capacity = capacity) :
    Follows capacity turn (a.observe true) (b.observe true) := by
  subst hcapacity
  exact ⟨h.len_eq, h.isEmpty_eq, h.isFull_eq, h.firstSlot?_eq, h.lastSlot?_eq, h.nextFirst?_eq,
    h.nextLast?_eq⟩

/-! ## Moves -/

theorem grownBack (h : a.Turned turn b) (hroom : a.len ≠ a.maxLen) :
    a.grownBack.Turned turn b.grownBack where
  left := h.left.grownBack hroom
  right := h.right.grownBack (by rwa [h.len_eq, h.maxLen_eq])
  capacity_eq := h.capacity_eq
  len_eq := congrArg (· + 1) h.len_eq
  first_eq := h.first_eq

theorem grownFront (h : a.Turned turn b) (hroom : a.len ≠ a.maxLen) :
    a.grownFront.Turned turn b.grownFront where
  left := h.left.grownFront hroom
  right := h.right.grownFront (by rwa [h.len_eq, h.maxLen_eq])
  capacity_eq := h.capacity_eq
  len_eq := congrArg (· + 1) h.len_eq
  first_eq := h.before_first_eq

theorem shrunkFront (h : a.Turned turn b) (hsome : a.len ≠ 0) :
    a.shrunkFront.Turned turn b.shrunkFront where
  left := h.left.shrunkFront hsome
  right := h.right.shrunkFront (by rwa [h.len_eq])
  capacity_eq := h.capacity_eq
  len_eq := congrArg (· - 1) h.len_eq
  first_eq := h.slotAt_eq 1

theorem shrunkBack (h : a.Turned turn b) (hsome : a.len ≠ 0) :
    a.shrunkBack.Turned turn b.shrunkBack where
  left := h.left.shrunkBack hsome
  right := h.right.shrunkBack (by rwa [h.len_eq])
  capacity_eq := h.capacity_eq
  len_eq := congrArg (· - 1) h.len_eq
  first_eq := h.first_eq

theorem reset (h : a.Turned turn b) : a.reset.Turned 0 b.reset where
  left := h.left.reset
  right := h.right.reset
  capacity_eq := h.capacity_eq
  len_eq := rfl
  first_eq := (Cursor.forward_zero h.left.capacity_pos).symm

/-- Trackers that go back to slot 0 when they are empty may stand apart by another turn then. -/
theorem settle (h : a.Turned turn b) :
    ∃ turn', a.settle.Turned turn' b.settle ∧
      (a.settle.len ≠ 0 ∨ a.resetOnZero = false ∧ b.resetOnZero = false → turn' = turn) := by
  rw [len_settle]
  by_cases hstays : a.len ≠ 0 ∨ a.resetOnZero = false ∧ b.resetOnZero = false
  · have ha : a.settle = a := settle_eq_self (hstays.imp_right And.left)
    have hb : b.settle = b := settle_eq_self (h.len_eq ▸ hstays.imp_right And.right)
    rw [ha, hb]
    exact ⟨turn, h, fun _ => rfl⟩
  · obtain ⟨turn', -, hturned⟩ := h.toLevel.settle.exists_turned
    exact ⟨turn', hturned, fun hkeeps => absurd hkeeps hstays⟩

end Turned

/-- A move after which elements are held, or that takes no tracker back to slot 0. -/
def KeepsTurn (a b : SlotTracker) (step : Move) : Prop :=
  (a.move step).2.len ≠ 0 ∨ step ≠ .reset ∧ a.resetOnZero = false ∧ b.resetOnZero = false

/-- One move is accepted on both sides or refused on both, and leaves the trackers turned. -/
theorem Turned.move (h : a.Turned turn b) (step : Move) :
    (b.move step).1 = (a.move step).1 ∧
      ∃ turn', (a.move step).2.Turned turn' (b.move step).2 ∧
        (KeepsTurn a b step → turn' = turn) := by
  unfold KeepsTurn
  cases step with
  | addLast =>
    simp only [SlotTracker.move, h.left.addLast_eq, h.right.addLast_eq, h.len_eq, h.maxLen_eq]
    split
    · exact ⟨rfl, turn, h, fun _ => rfl⟩
    · next hroom => exact ⟨rfl, turn, h.grownBack hroom, fun _ => rfl⟩
  | addFirst =>
    simp only [SlotTracker.move, h.left.addFirst_eq, h.right.addFirst_eq, h.len_eq, h.maxLen_eq]
    split
    · exact ⟨rfl, turn, h, fun _ => rfl⟩
    · next hroom =>
      by_cases hzero : a.len = 0
      · rw [if_pos hzero, if_pos hzero]
        exact ⟨rfl, turn, h.grownBack hroom, fun _ => rfl⟩
      · rw [if_neg hzero, if_neg hzero]
        exact ⟨rfl, turn, h.grownFront hroom, fun _ => rfl⟩
  | removeFirst =>
    simp only [SlotTracker.move, h.left.removeFirst_eq, h.right.removeFirst_eq, h.len_eq]
    split
    · exact ⟨rfl, turn, h, fun _ => rfl⟩
    · next hsome =>
      obtain ⟨turn', hturned, hkeep⟩ := (h.shrunkFront hsome).settle
      exact ⟨rfl, turn', hturned, fun hkeeps => hkeep (hkeeps.imp_right And.right)⟩
  | removeLast =>
    simp only [SlotTracker.move, h.left.removeLast_eq, h.right.removeLast_eq, h.len_eq]
    split
    · exact ⟨rfl, turn, h, fun _ => rfl⟩
    · next hsome =>
      obtain ⟨turn', hturned, hkeep⟩ := (h.shrunkBack hsome).settle
      exact ⟨rfl, turn', hturned, fun hkeeps => hkeep (hkeeps.imp_right And.right)⟩
  | reset =>
    refine ⟨rfl, 0, h.reset, ?_⟩
    rintro (hlen | ⟨hne, -⟩)
    · exact absurd rfl hlen
    · exact absurd rfl hne

/-! ## Runs -/

namespace Turned

theorem moves (h : a.Turned turn b) (steps : List Move) :
    (b.moves steps).1 = (a.moves steps).1 ∧
      ∃ turn', (a.moves steps).2.Turned turn' (b.moves steps).2 := by
  induction steps generalizing a b turn with
  | nil => exact ⟨rfl, turn, h⟩
  | cons step steps ih =>
    obtain ⟨hdone, turn', hturned, -⟩ := h.move step
    obtain ⟨hrest, hlast⟩ := ih hturned
    refine ⟨?_, hlast⟩
    rw [moves_cons, moves_cons, hdone, hrest]

/-- A run of moves that all keep the turn keeps it. -/
theorem moves_of_keepsTurn (h : a.Turned turn b) {steps : List Move}
    (hkeeps : ∀ part step, part ++ [step] <+: steps →
      KeepsTurn (a.moves part).2 (b.moves part).2 step) :
    (a.moves steps).2.Turned turn (b.moves steps).2 := by
  induction steps generalizing a b with
  | nil => exact h
  | cons step steps ih =>
    obtain ⟨-, turn', hturned, hkeep⟩ := h.move step
    obtain rfl := hkeep (hkeeps [] step (List.cons_prefix_cons.2 ⟨rfl, List.nil_prefix⟩))
    apply ih hturned
    intro part last hpart
    exact hkeeps (step :: part) last (List.cons_prefix_cons.2 ⟨rfl, hpart⟩)

/-- Trackers that never go back to slot 0 keep their turn. -/
theorem moves_of_keep (h : a.Turned turn b) (ha : a.resetOnZero = false)
    (hb : b.resetOnZero = false) {steps : List Move} (hsteps : .reset ∉ steps) :
    (a.moves steps).2.Turned turn (b.moves steps).2 := by
  apply h.moves_of_keepsTurn
  intro part step hpart
  have hstep : step ≠ .reset := by
    rintro rfl
    exact hsteps (hpart.subset (List.mem_append_right part (List.mem_singleton_self _)))
  exact .inr ⟨hstep, (a.resetOnZero_moves part).trans ha, (b.resetOnZero_moves part).trans hb⟩

/-- Trackers that hold elements after every move keep their turn. -/
theorem moves_of_isEmpty (h : a.Turned turn b) {steps : List Move}
    (hsome : ∀ part, part <+: steps → part ≠ [] → (a.moves part).2.isEmpty = false) :
    (a.moves steps).2.Turned turn (b.moves steps).2 := by
  apply h.moves_of_keepsTurn
  intro part step hpart
  have hempty := hsome (part ++ [step]) hpart (by simp)
  have hvalid := h.left.moves (part ++ [step])
  rw [moves_append] at hempty hvalid
  exact .inl (hvalid.len_ne_zero hempty)

end Turned

/-- The first slot of a tracker that never goes back to slot 0 turns every slot that is named, and
nothing else shows it. Going back when empty changes no answer either: the slots that are named
stand apart by one turn, which stays as long as elements are held.

Slots are any numbers here. Trackers in words are turned so on at most `2 ^ 63` slots, by
`WordTracker.placementTurns` and `WordTracker.resetTurns`. -/
theorem placement_only_turns :
    (∀ capacity first len : Nat, 1 ≤ capacity → first < capacity → len ≤ capacity - 1 →
      ∃ a b : SlotTracker, withPosition capacity 0 len = .ok a ∧
        withPosition capacity first len = .ok b ∧
        ∀ steps : List Move, .reset ∉ steps →
          (b.moves steps).1 = (a.moves steps).1 ∧
            Follows capacity first ((a.moves steps).2.observe true)
              ((b.moves steps).2.observe true)) ∧
    ∀ capacity : Nat, 1 ≤ capacity →
      ∃ a b : SlotTracker, withOptions capacity { resetOnZero := true } = .ok a ∧
        withOptions capacity { resetOnZero := false } = .ok b ∧
        ∀ steps : List Move, (b.moves steps).1 = (a.moves steps).1 ∧
          ∃ turn < capacity,
            Follows capacity turn ((a.moves steps).2.observe true)
              ((b.moves steps).2.observe true) ∧
            ∀ more : List Move,
              (∀ part, part <+: more → part ≠ [] → (a.moves (steps ++ part)).2.isEmpty = false) →
              Follows capacity turn ((a.moves (steps ++ more)).2.observe true)
                ((b.moves (steps ++ more)).2.observe true) := by
  constructor
  · intro capacity first len hpos hfirst hlen
    have ha : withPosition capacity 0 len = .ok _ := build_eq_ok_iff.2 ⟨hpos, hpos, hlen, rfl⟩
    have hb : withPosition capacity first len = .ok _ :=
      build_eq_ok_iff.2 ⟨hpos, hfirst, hlen, rfl⟩
    have hturned := turned_of_build ha hb
    refine ⟨_, _, ha, hb, ?_⟩
    intro steps hsteps
    exact ⟨(hturned.moves steps).1,
      (hturned.moves_of_keep rfl rfl hsteps).follows (capacity_moves _ steps)⟩
  · intro capacity hpos
    have ha : withOptions capacity { resetOnZero := true } = .ok _ :=
      build_eq_ok_iff.2 ⟨hpos, hpos, Nat.zero_le _, rfl⟩
    have hb : withOptions capacity { resetOnZero := false } = .ok _ :=
      build_eq_ok_iff.2 ⟨hpos, hpos, Nat.zero_le _, rfl⟩
    refine ⟨_, _, ha, hb, ?_⟩
    intro steps
    obtain ⟨hdone, _, hlevel⟩ := (turned_of_build ha hb).moves steps
    obtain ⟨turn, hlt, hturned⟩ := hlevel.toLevel.exists_turned
    rw [capacity_moves] at hlt
    refine ⟨hdone, turn, hlt, hturned.follows (capacity_moves _ steps), ?_⟩
    intro more hsome
    simp only [moves_append] at hsome ⊢
    refine (hturned.moves_of_isEmpty hsome).follows ?_
    rw [capacity_moves, capacity_moves]

end CyclicQueue.SlotTracker
