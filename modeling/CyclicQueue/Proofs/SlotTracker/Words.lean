import CyclicQueue.Proofs.SlotTracker.WordMoves

/-!
# Words suffice for up to `2 ^ 63` slots

The step back from a slot adds a full turn before it takes one slot off. On at most `2 ^ 63` slots
the sum is still a word, since a cursor lies strictly below the number of slots, and no other sum
of a tracker is larger. So a tracker in words goes through the same states as the tracker of the
same numbers, and the tested moves are never stopped.
-/

namespace CyclicQueue.SlotTracker

open Machine

variable {tracker : SlotTracker} {words : WordTracker}

/-! ## Runs -/

/-- Every sum of the tests, the slots and the moves of a tracker is a word, and no length falls
below zero. -/
structure SumsFit (tracker : SlotTracker) : Prop where
  after_first : tracker.first + 1 < wordLimit
  after_next : tracker.next + 1 < wordLimit
  before_first : tracker.first + tracker.capacity < wordLimit
  before_next : tracker.next + tracker.capacity < wordLimit
  /-- Tested after each removal. -/
  first_add_len : tracker.first + tracker.len < wordLimit
  grown : tracker.len + 1 < wordLimit
  shrunk : tracker.isEmpty = false → 1 ≤ tracker.len

theorem InWords.sumsFit (h : tracker.InWords) : tracker.SumsFit where
  after_first := h.slot_add_lt h.valid.first_lt h.valid.capacity_pos
  after_next := h.slot_add_lt h.valid.next_lt h.valid.capacity_pos
  before_first := h.slot_add_lt h.valid.first_lt (Nat.le_refl _)
  before_next := h.slot_add_lt h.valid.next_lt (Nat.le_refl _)
  first_add_len := h.first_add_len_lt
  grown := h.len_add_one_lt
  shrunk hempty := Nat.one_le_iff_ne_zero.2 (h.valid.len_ne_zero hempty)

/-- What words make of a run: no sum leaves them, no test fails, and every answer and every slot is
that of the numbers. -/
structure CarriedOut (tracker : SlotTracker) (words : WordTracker) (steps : List Move) :
    Prop where
  sums : (tracker.moves steps).2.SumsFit
  tested : Guarded.watch tracker steps = .ok (tracker.watch steps)
  tested_sight : Guarded.sight (tracker.moves steps).2 = .ok (tracker.moves steps).2.sight
  answers : (words.moves steps).1 = (tracker.moves steps).1
  state : (words.moves steps).2.value = (tracker.moves steps).2
  watched : words.watch steps = tracker.watch steps
  sight : (words.moves steps).2.sight = (tracker.moves steps).2.sight

theorem carriedOut (h : words.value.InWords) (steps : List Move) :
    CarriedOut words.value words steps := by
  have hrun := WordTracker.moves_value h steps
  have hstate : (words.value.moves steps).2 = (words.moves steps).2.value :=
    congrArg Prod.snd hrun
  have hleft : (words.moves steps).2.value.InWords := hstate ▸ h.moves steps
  refine ⟨(h.moves steps).sumsFit, Guarded.watch_eq h steps, Guarded.sight_eq (h.moves steps),
    (congrArg Prod.fst hrun).symm, hstate.symm, (WordTracker.watch_value h steps).symm, ?_⟩
  rw [hstate, WordTracker.sight_value hleft]

/-- On up to `2 ^ 63` slots, from whatever position on, every run of moves is carried out in words
as with numbers. -/
theorem words_suffice {capacity first len : Nat} (options : Options) (hpos : 1 ≤ capacity)
    (hcycle : capacity ≤ cycleLimit) (hfirst : first < capacity) (hlen : len ≤ capacity - 1) :
    first + len < wordLimit ∧
    ∃ (tracker : SlotTracker) (words : WordTracker),
      build capacity first len options = .ok tracker ∧
      Guarded.build capacity first len options = .ok (.ok tracker) ∧
      WordTracker.build (.ofNat capacity) (.ofNat first) (.ofNat len) options = .ok words ∧
      words.value = tracker ∧ ∀ steps : List Move, CarriedOut tracker words steps := by
  have hword : wordLimit = 2 * cycleLimit := wordLimit_eq_cycles
  have hcapacityWord : (UInt64.ofNat capacity).toNat = capacity := toNat_ofNat (by omega)
  have hfirstWord : (UInt64.ofNat first).toNat = first := toNat_ofNat (by omega)
  have hlenWord : (UInt64.ofNat len).toNat = len := toNat_ofNat (by omega)
  have hbuilt : build capacity first len options =
      .ok ⟨capacity, first, (first + len) % capacity, len, options⟩ :=
    build_eq_ok_iff.2 ⟨hpos, hfirst, hlen, rfl⟩
  obtain ⟨words, hmade, hvalue⟩ : ∃ words,
      WordTracker.build (.ofNat capacity) (.ofNat first) (.ofNat len) options = .ok words ∧
        words.value = ⟨capacity, first, (first + len) % capacity, len, options⟩ := by
    apply WordTracker.exists_build (hcapacityWord.symm ▸ hcycle)
    rw [hcapacityWord, hfirstWord, hlenWord, hbuilt]
  have hinWords : words.value.InWords := by
    rw [hvalue]
    exact ⟨valid_of_build hbuilt, hcycle⟩
  refine ⟨by omega, _, words, hbuilt, ?_, hmade, hvalue, ?_⟩
  · rw [Guarded.build_eq hcycle, hbuilt]
  · rw [← hvalue]
    exact carriedOut hinWords

/-- The last slot of the largest cycle is the first one of two elements. A full turn from there on
is the largest word, and one step back is carried out. -/
theorem words_suffice_last_slot :
    (1 ≤ cycleLimit ∧ cycleLimit ≤ cycleLimit ∧ cycleLimit - 1 < cycleLimit ∧
      2 ≤ cycleLimit - 1) ∧
    cycleLimit - 1 + 2 < wordLimit ∧ cycleLimit - 1 + cycleLimit + 1 = wordLimit ∧
    ∃ (tracker : SlotTracker) (words : WordTracker),
      build cycleLimit (cycleLimit - 1) 2 {} = .ok tracker ∧
      WordTracker.build (.ofNat cycleLimit) (.ofNat (cycleLimit - 1)) 2 {} = .ok words ∧
      (words.moves [.addFirst, .removeLast]).1 = [true, true] ∧
      (words.moves [.addFirst, .removeLast]).2.value = ⟨cycleLimit, cycleLimit - 2, 0, 2, {}⟩ := by
  have hrange : 1 ≤ cycleLimit ∧ cycleLimit ≤ cycleLimit ∧ cycleLimit - 1 < cycleLimit ∧
      2 ≤ cycleLimit - 1 := by decide
  obtain ⟨hpos, hcycle, hfirst, hlen⟩ := hrange
  obtain ⟨hsum, tracker, words, hbuilt, -, hmade, -, hruns⟩ :=
    words_suffice {} hpos hcycle hfirst hlen
  have htracker : tracker = ⟨cycleLimit, cycleLimit - 1, 1, 2, {}⟩ :=
    (build_eq_ok_iff.1 hbuilt).2.2.2
  have hrun := hruns [.addFirst, .removeLast]
  rw [htracker] at hrun
  exact ⟨⟨hpos, hcycle, hfirst, hlen⟩, hsum, by decide, tracker, words, hbuilt, hmade,
    hrun.answers, hrun.state⟩

/-! ## Sessions -/

theorem InWords.value_ofNumbers (h : tracker.InWords) :
    (WordTracker.ofNumbers tracker).value = tracker := by
  have hword {n : Nat} (hn : n ≤ tracker.capacity) : (UInt64.ofNat n).toNat = n :=
    toNat_ofNat (Nat.lt_of_le_of_lt (Nat.le_trans hn h.capacity_le) (by decide))
  rw [WordTracker.ofNumbers, WordTracker.value, hword (Nat.le_refl _),
    hword (Nat.le_of_lt h.valid.first_lt), hword (Nat.le_of_lt h.valid.next_lt),
    hword (Nat.le_of_lt h.valid.len_lt)]

theorem InWords.observeInWords_eq (h : tracker.InWords) :
    tracker.observeInWords = tracker.observe true := by
  have hvalue := h.value_ofNumbers
  rw [observeInWords, ← WordTracker.observe_value (hvalue.symm ▸ h), hvalue]

/-- The numbers of a recipe are words, and a full turn from any slot is one too. -/
def Recipe.InWords : Recipe → Prop
  | .ofCapacity capacity => capacity ≤ cycleLimit
  | .withPosition capacity first len =>
    capacity ≤ cycleLimit ∧ first < wordLimit ∧ len < wordLimit
  | .withOptions capacity _ => capacity ≤ cycleLimit

theorem build_ofNat {capacity first len : Nat} (hcycle : capacity ≤ cycleLimit)
    (hfirst : first < wordLimit) (hlen : len < wordLimit) (options : Options) :
    (WordTracker.build (.ofNat capacity) (.ofNat first) (.ofNat len) options).map
        WordTracker.value = build capacity first len options := by
  have hcapacity : (UInt64.ofNat capacity).toNat = capacity :=
    toNat_ofNat (Nat.lt_of_le_of_lt hcycle (by decide))
  rw [WordTracker.build_value (hcapacity.symm ▸ hcycle), hcapacity, toNat_ofNat hfirst,
    toNat_ofNat hlen]

theorem Recipe.InWords.make_eq {recipe : Recipe} (h : recipe.InWords) :
    recipe.makeInWords.map WordTracker.value = recipe.make := by
  have hzero : 0 < wordLimit := by decide
  cases recipe with
  | ofCapacity capacity => exact build_ofNat h hzero hzero {}
  | withPosition capacity first len => exact build_ofNat h.1 h.2.1 h.2.2 {}
  | withOptions capacity options => exact build_ofNat h hzero hzero options

theorem Recipe.InWords.made {recipe : Recipe} (h : recipe.InWords)
    (hmade : recipe.make = .ok tracker) : tracker.InWords := by
  refine ⟨valid_of_make hmade, ?_⟩
  cases recipe with
  | ofCapacity capacity =>
    obtain ⟨-, -, -, rfl⟩ := build_eq_ok_iff.1 hmade
    exact h
  | withPosition capacity first len =>
    obtain ⟨-, -, -, rfl⟩ := build_eq_ok_iff.1 hmade
    exact h.1
  | withOptions capacity options =>
    obtain ⟨-, -, -, rfl⟩ := build_eq_ok_iff.1 hmade
    exact h

namespace Session

variable {session : Session}

/-- A request in words is carried out as with numbers. -/
theorem stepInWords_eq (h : session.All SlotTracker.InWords) {request : Request}
    (hmade : ∀ target recipe, request = .make target recipe → recipe.InWords) :
    session.stepInWords request = session.step request := by
  cases request with
  | make target recipe =>
    simp only [stepInWords, step, ← (hmade target recipe rfl).make_eq]
    cases recipe.makeInWords <;> rfl
  | move name step =>
    simp only [stepInWords, Session.step, stepOn]
    cases hfound : session.trackers.get? name with
    | none => rfl
    | some tracker =>
      have hwords := h name tracker hfound
      have hvalue := hwords.value_ofNumbers
      have hmove := WordTracker.move_value (hvalue.symm ▸ hwords) step
      rw [hvalue] at hmove
      simp only [hmove, Prod.map, id]
  | look name => rfl
  | «show» name expanded => rfl
  | copy name target => rfl
  | compare name other => rfl

/-- A session whose recipes are in words is the session of the numbers. -/
theorem runInWords_eq (h : session.All SlotTracker.InWords) {requests : List Request}
    (hmade : ∀ target recipe, .make target recipe ∈ requests → recipe.InWords) :
    session.runInWords requests = session.run requests := by
  induction requests generalizing session with
  | nil => rfl
  | cons request requests ih =>
    have hfirst (target : String) (recipe : Recipe) (heq : request = .make target recipe) :
        recipe.InWords :=
      hmade target recipe (heq ▸ List.mem_cons_self)
    have hleft : (session.step request).2.All SlotTracker.InWords := by
      apply h.step fun _ step hwords => hwords.move step
      intro target recipe tracker heq hmake
      exact (hfirst target recipe heq).made hmake
    have hrest := ih hleft fun target recipe hmem =>
      hmade target recipe (List.mem_cons_of_mem _ hmem)
    simp only [runInWords, run, stepInWords_eq h hfirst, hrest]

end Session

end CyclicQueue.SlotTracker
