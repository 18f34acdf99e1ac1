import CyclicQueue.ByteRing.Compare
import CyclicQueue.Proofs.ByteRing.Changes

/-!
# Walks, equality and hashing on the contents

A walk takes from the front and from the back of one list, whichever of its two pieces a step
meets. Equality, which compares three stretches, and hashing see the same list.
-/

namespace CyclicQueue.ByteRing

/-- Takes an element from one end of a list. -/
def End.take (bytes : List UInt8) : End → Option UInt8 × List UInt8
  | .front => (bytes.head?, bytes.tail)
  | .back => (bytes.getLast?, bytes.dropLast)

/-- Takes one element after the other from the ends of a list, and tells after each how many are
left. -/
def followList (bytes : List UInt8) : List End → List (Option UInt8 × Nat) × List UInt8
  | [] => ([], bytes)
  | side :: sides =>
    let (byte, rest) := side.take bytes
    let (met, last) := followList rest sides
    ((byte, rest.length) :: met, last)

theorem toList_walk (ring : ByteRing) : ring.walk.toList = ring.toList := rfl

namespace Walk

theorem size_eq (walk : Walk) : walk.size = walk.toList.length :=
  List.length_append.symm

theorem next_eq (walk : Walk) :
    walk.next.1 = walk.toList.head? ∧ walk.next.2.toList = walk.toList.tail := by
  obtain ⟨head, tail⟩ := walk
  cases head with
  | cons byte head => exact ⟨rfl, rfl⟩
  | nil =>
    cases tail with
    | cons byte tail => exact ⟨rfl, rfl⟩
    | nil => exact ⟨rfl, rfl⟩

theorem unsnoc?_concat (bytes : List UInt8) (byte : UInt8) :
    unsnoc? (bytes ++ [byte]) = some (bytes, byte) := by
  simp [unsnoc?]

theorem nextBack_eq (walk : Walk) :
    walk.nextBack.1 = walk.toList.getLast? ∧ walk.nextBack.2.toList = walk.toList.dropLast := by
  obtain ⟨head, tail⟩ := walk
  rcases List.eq_nil_or_concat tail with rfl | ⟨tail, last, rfl⟩
  · have hnil : unsnoc? [] = none := rfl
    rcases List.eq_nil_or_concat head with rfl | ⟨head, last, rfl⟩
    · exact ⟨rfl, rfl⟩
    · simp [nextBack, hnil, unsnoc?_concat, toList]
  · simp [nextBack, unsnoc?_concat, toList, ← List.append_assoc]

theorem step_eq (walk : Walk) (side : End) :
    (walk.step side).1 = (side.take walk.toList).1 ∧
      (walk.step side).2.toList = (side.take walk.toList).2 := by
  cases side with
  | front => exact walk.next_eq
  | back => exact walk.nextBack_eq

/-- A walk meets what the list gives when it is taken from at the same ends. -/
theorem follow_eq (walk : Walk) (sides : List End) :
    (walk.follow sides).1 = (followList walk.toList sides).1 ∧
      (walk.follow sides).2.toList = (followList walk.toList sides).2 := by
  induction sides generalizing walk with
  | nil => exact ⟨rfl, rfl⟩
  | cons side sides ih =>
    obtain ⟨hbyte, hrest⟩ := walk.step_eq side
    obtain ⟨hmet, hlast⟩ := ih (walk.step side).2
    rw [hrest] at hmet hlast
    refine ⟨?_, hlast⟩
    simp only [follow, followList, hbyte, hmet, size_eq, hrest]

theorem collect_eq (walk : Walk) : walk.collect = walk.toList := by
  fun_induction collect walk with
  | case1 walk rest h =>
    obtain ⟨hbyte, -⟩ := walk.next_eq
    rw [h] at hbyte
    exact (List.head?_eq_none_iff.1 hbyte.symm).symm
  | case2 walk byte rest h ih =>
    obtain ⟨hbyte, hrest⟩ := walk.next_eq
    rw [h] at hbyte hrest
    obtain ⟨front, hfront⟩ := List.head?_eq_some_iff.1 hbyte.symm
    rw [ih, hrest, hfront, List.tail_cons]

theorem collectBack_eq (walk : Walk) : walk.collectBack = walk.toList.reverse := by
  fun_induction collectBack walk with
  | case1 walk rest h =>
    obtain ⟨hbyte, -⟩ := walk.nextBack_eq
    rw [h] at hbyte
    rw [List.getLast?_eq_none_iff.1 hbyte.symm, List.reverse_nil]
  | case2 walk byte rest h ih =>
    obtain ⟨hbyte, hrest⟩ := walk.nextBack_eq
    rw [h] at hbyte hrest
    obtain ⟨front, hfront⟩ := List.getLast?_eq_some_iff.1 hbyte.symm
    rw [ih, hrest, hfront, List.dropLast_concat, List.reverse_concat]

end Walk

theorem Valid.hashFeeds_eq {ring : ByteRing} (h : ring.Valid) :
    ring.hashFeeds = .word ring.toList.length :: ring.toList.map .byte := by
  rw [hashFeeds, Walk.collect_eq, toList_walk, h.length_toList]

/-! ## Equality -/

/-- The three stretches, cut first where the shorter head ends, cover the bytes of both sides. -/
theorem stretches_iff {a b : Runs} (h : a.head.length ≤ b.head.length) :
    (a.head = b.head.take a.head.length ∧
        a.tail.take (b.head.length - a.head.length) = b.head.drop a.head.length ∧
        a.tail.drop (b.head.length - a.head.length) = b.tail) ↔ a.bytes = b.bytes := by
  have hmiddle : (b.head.drop a.head.length).length = b.head.length - a.head.length :=
    List.length_drop
  constructor
  · rintro ⟨hfront, hmid, hback⟩
    calc
      a.head ++ a.tail = a.head ++ (a.tail.take (b.head.length - a.head.length) ++
          a.tail.drop (b.head.length - a.head.length)) := by rw [List.take_append_drop]
      _ = b.head.take a.head.length ++ b.head.drop a.head.length ++ b.tail := by
        rw [hmid, hback, ← hfront, List.append_assoc]
      _ = b.head ++ b.tail := by rw [List.take_append_drop]
  · intro heq
    have hcut : a.head ++ a.tail =
        b.head.take a.head.length ++ (b.head.drop a.head.length ++ b.tail) := by
      rw [← List.append_assoc, List.take_append_drop]
      exact heq
    obtain ⟨hfront, hrest⟩ := List.append_inj hcut (by rw [List.length_take]; omega)
    refine ⟨hfront, ?_, ?_⟩
    · rw [hrest, ← hmiddle, List.take_left]
    · rw [hrest, ← hmiddle, List.drop_left]

theorem agree_iff (a b : Runs) : agree a b = true ↔ a.bytes = b.bytes := by
  unfold agree
  rcases Nat.lt_trichotomy a.head.length b.head.length with hlt | heq | hgt
  · rw [if_neg (Nat.ne_of_lt hlt), if_pos hlt, ← stretches_iff (Nat.le_of_lt hlt)]
    simp [and_assoc]
  · rw [if_pos heq, ← stretches_iff (Nat.le_of_eq heq), heq]
    simp
  · rw [if_neg (Nat.ne_of_gt hgt), if_neg (Nat.not_lt.2 (Nat.le_of_lt hgt)),
      eq_comm (a := a.bytes), ← stretches_iff (Nat.le_of_lt hgt)]
    simp only [Bool.and_eq_true, beq_iff_eq, and_assoc]
    constructor
    · rintro ⟨hfront, hmid, hback⟩
      exact ⟨hfront.symm, hmid.symm, hback.symm⟩
    · rintro ⟨hfront, hmid, hback⟩
      exact ⟨hfront.symm, hmid.symm, hback.symm⟩

/-- Two rings are equal where they hold the same bytes. -/
theorem Valid.equal_iff {a b : ByteRing} (ha : a.Valid) (hb : b.Valid) :
    a.equal b = true ↔ a.toList = b.toList := by
  rw [equal, Bool.and_eq_true, beq_iff_eq, agree_iff]
  constructor
  · exact fun h => h.2
  · intro h
    refine ⟨?_, h⟩
    rw [← ha.length_toList, h, hb.length_toList]

end CyclicQueue.ByteRing
