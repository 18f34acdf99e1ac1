import CyclicQueue.Proofs.ByteRing.Reachable

/-!
# Walks that take from both ends

A walk keeps the bytes to come in two pieces, and a step from either end may go over from one piece
to the other. None of this shows: steps from the front and from the back, in whatever order, take
bytes off the two ends of one list until nothing is left, and nothing comes after that.
-/

namespace CyclicQueue.ByteRing

variable {ring : ByteRing}

/-! ## The list that is taken from -/

/-- What is left of a list after steps at its ends. Steps that find nothing are counted too. -/
def middle (bytes : List UInt8) (sides : List End) : List UInt8 :=
  (bytes.take (bytes.length - sides.count .back)).drop (sides.count .front)

/-- The bytes that the steps at one end met, in order. -/
def metAt (side : End) (sides : List End) (met : List (Option UInt8 × Nat)) : List UInt8 :=
  (sides.zip met).filterMap fun step => if step.1 = side then step.2.1 else none

theorem metAt_cons (side first : End) (sides : List End) (answer : Option UInt8 × Nat)
    (met : List (Option UInt8 × Nat)) :
    metAt side (first :: sides) (answer :: met) =
      (if first = side then answer.1.toList else []) ++ metAt side sides met := by
  obtain ⟨byte, size⟩ := answer
  by_cases hside : first = side <;> cases byte <;> simp [metAt, hside]

theorem count_front_add_count_back (sides : List End) :
    sides.count .front + sides.count .back = sides.length := by
  induction sides with
  | nil => rfl
  | cons side sides ih =>
    cases side <;> simp <;> omega

theorem length_middle (bytes : List UInt8) (sides : List End) :
    (middle bytes sides).length = bytes.length - sides.length := by
  have hcount := count_front_add_count_back sides
  simp only [middle, List.length_drop, List.length_take]
  omega

theorem middle_take (bytes : List UInt8) (side : End) (sides : List End) :
    middle (side.take bytes).2 sides = middle bytes (side :: sides) := by
  cases side with
  | front =>
    have htail : bytes.tail.take (bytes.length - 1 - sides.count .back) =
        (bytes.take (bytes.length - sides.count .back)).drop 1 := by
      rw [List.drop_take, List.drop_one, Nat.sub_right_comm]
    simp [End.take, middle, htail]
  | back =>
    have hlast : bytes.dropLast.take (bytes.length - 1 - sides.count .back) =
        bytes.take (bytes.length - (sides.count .back + 1)) := by
      rw [List.dropLast_eq_take, List.take_take]
      congr 1
      omega
    simp [End.take, middle, hlast]

theorem followList_snd (bytes : List UInt8) (sides : List End) :
    (followList bytes sides).2 = middle bytes sides := by
  induction sides generalizing bytes with
  | nil => simp [followList, middle]
  | cons side sides ih =>
    calc
      _ = middle (side.take bytes).2 sides := ih _
      _ = middle bytes (side :: sides) := middle_take bytes side sides

/-- Every byte is met once, from the one end or from the other, or is left. -/
theorem metAt_append_middle (bytes : List UInt8) (sides : List End) :
    metAt .front sides (followList bytes sides).1 ++ middle bytes sides ++
      (metAt .back sides (followList bytes sides).1).reverse = bytes := by
  induction sides generalizing bytes with
  | nil => simp [metAt, middle]
  | cons side sides ih =>
    have hrest := ih (side.take bytes).2
    rw [middle_take] at hrest
    cases side with
    | front =>
      calc
        _ = bytes.head?.toList ++ (metAt .front sides (followList bytes.tail sides).1 ++
            middle bytes (.front :: sides) ++
            (metAt .back sides (followList bytes.tail sides).1).reverse) := by
          simp [followList, metAt_cons, End.take]
        _ = bytes.head?.toList ++ bytes.tail := congrArg _ hrest
        _ = bytes := by cases bytes <;> rfl
    | back =>
      calc
        _ = metAt .front sides (followList bytes.dropLast sides).1 ++
            middle bytes (.back :: sides) ++
            (metAt .back sides (followList bytes.dropLast sides).1).reverse ++
            bytes.getLast?.toList := by
          have hone : bytes.getLast?.toList.reverse = bytes.getLast?.toList := by
            cases bytes.getLast? <;> rfl
          simp [followList, metAt_cons, End.take, hone]
        _ = bytes.dropLast ++ bytes.getLast?.toList := congrArg (· ++ _) hrest
        _ = bytes := by
          rcases List.eq_nil_or_concat bytes with rfl | ⟨front, last, rfl⟩
          · rfl
          · simp

/-! ## Walks -/

namespace Walk

/-- What a walk tells while the bytes `left` are to come. -/
structure Comes (walk : Walk) (left : List UInt8) : Prop where
  pieces : walk.head ++ walk.tail = left
  sizeHint : walk.sizeHint = (left.length, some left.length)
  collect : walk.collect = left
  collectBack : walk.collectBack = left.reverse
  next : walk.next.1 = left.head?
  nextBack : walk.nextBack.1 = left.getLast?
  step_eq_none_iff : ∀ side, (walk.step side).1 = none ↔ left = []
  ended : left = [] → ∀ sides,
    walk.follow sides = (List.replicate sides.length (none, 0), walk)

variable {walk : Walk} {left : List UInt8}

theorem step_of_ended (hnil : walk.toList = []) (side : End) : walk.step side = (none, walk) := by
  obtain ⟨head, tail⟩ := walk
  obtain ⟨rfl, rfl⟩ := List.append_eq_nil_iff.1 hnil
  cases side <;> rfl

theorem follow_of_ended (hnil : walk.toList = []) (sides : List End) :
    walk.follow sides = (List.replicate sides.length (none, 0), walk) := by
  have hsize : walk.size = 0 := by rw [size_eq, hnil, List.length_nil]
  induction sides with
  | nil => rfl
  | cons side sides ih => simp [follow, step_of_ended hnil side, ih, hsize, List.replicate_succ]

theorem comes (walk : Walk) : walk.Comes walk.toList where
  pieces := rfl
  sizeHint := by rw [Walk.sizeHint, size_eq]
  collect := walk.collect_eq
  collectBack := walk.collectBack_eq
  next := walk.next_eq.1
  nextBack := walk.nextBack_eq.1
  step_eq_none_iff side := by
    rw [(walk.step_eq side).1]
    cases side with
    | front => exact List.head?_eq_none_iff
    | back => exact List.getLast?_eq_none_iff
  ended hnil := follow_of_ended hnil

end Walk

/-- However a walk over a ring is driven, each step answers what the list of the contents gives when
it is taken from at that end. At every point the middle of the contents is left, in both pieces
together, the bytes met before it and behind it are the others, and the walk tells how many bytes
are to come. -/
theorem walks_take_from_both_ends (h : ring.Reachable) (sides : List End) :
    (ring.walk.follow sides).1 = (followList ring.toList sides).1 ∧
      (ring.walk.follow sides).2.Comes (middle ring.toList sides) ∧
      (middle ring.toList sides).length = ring.len - sides.length ∧
      metAt .front sides (ring.walk.follow sides).1 ++ middle ring.toList sides ++
        (metAt .back sides (ring.walk.follow sides).1).reverse = ring.toList := by
  obtain ⟨hmet, hleft⟩ := ring.walk.follow_eq sides
  rw [toList_walk] at hmet hleft
  refine ⟨hmet, ?_, ?_, ?_⟩
  · have hcomes := (ring.walk.follow sides).2.comes
    rwa [hleft, followList_snd] at hcomes
  · rw [length_middle, h.valid.length_toList]
  · rw [hmet]
    exact metAt_append_middle ring.toList sides

/-- The contents go round the end of the storage behind their second byte. The second step from the
back goes over to the first piece, and two steps find nothing. -/
theorem walks_take_from_both_ends_wrapped :
    Reachable ⟨#[30, 2, 10, 20], 2, 1, 3⟩ ∧
      walk ⟨#[30, 2, 10, 20], 2, 1, 3⟩ = ⟨[10, 20], [30]⟩ ∧
      ((walk ⟨#[30, 2, 10, 20], 2, 1, 3⟩).follow [.back, .back, .front, .back, .front]).1 =
        [(some 30, 2), (some 20, 1), (some 10, 0), (none, 0), (none, 0)] ∧
      Walk.Comes ((walk ⟨#[30, 2, 10, 20], 2, 1, 3⟩).follow [.back, .back]).2 [10] := by
  have hmake : (Recipe.ofBytesWithCapacity [1, 2] 3).make .ordinary =
      .ok ⟨#[1, 2, 0, 0], 0, 2, 2⟩ := rfl
  have hreach : Reachable ⟨#[30, 2, 10, 20], 2, 1, 3⟩ :=
    (Reachable.made hmake).updates [.take 2, .pushSlice [10, 20, 30]]
  obtain ⟨hmet, -⟩ :=
    walks_take_from_both_ends hreach [.back, .back, .front, .back, .front]
  obtain ⟨-, hcomes, -⟩ := walks_take_from_both_ends hreach [.back, .back]
  exact ⟨hreach, rfl, hmet, hcomes⟩

end CyclicQueue.ByteRing
