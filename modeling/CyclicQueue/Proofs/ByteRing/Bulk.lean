import CyclicQueue.Proofs.ByteRing.Streaming
import CyclicQueue.Proofs.Refusal

/-!
# Many bytes at once and one byte after the other

A request for many bytes copies two pieces and moves a cursor once. It leaves the ring that as many
requests for one byte leave: the same bytes in every slot of the storage, spare ones included, the
same cursors and the same length.
-/

namespace CyclicQueue.ByteRing

variable {ring left : ByteRing}

/-! ## Runs in a row -/

theorem updates_append (ring : ByteRing) (first second : List Update) :
    ring.updates (first ++ second) =
      ((ring.updates first).1 ++ ((ring.updates first).2.updates second).1,
        ((ring.updates first).2.updates second).2) := by
  induction first generalizing ring with
  | nil => rfl
  | cons change first ih => simp only [List.cons_append, updates, ih]

theorem updates_cons {change : Update} {outcome : Except Fault Removed}
    (h : ring.update change = (outcome, left)) (changes : List Update) :
    ring.updates (change :: changes) =
      (outcome :: (left.updates changes).1, (left.updates changes).2) := by
  simp only [updates, h]

theorem isFull_of_free_pos (hroom : 0 < ring.free) : ring.isFull = false := by
  apply isFull_eq_false_iff.2
  unfold free at hroom
  omega

/-- Bytes that fit are all taken in, and land where they would at once. -/
theorem Valid.updates_push (h : ring.Valid) {bytes : List UInt8}
    (hfit : bytes.length ≤ ring.free) :
    ring.updates (bytes.map .push) =
      (List.replicate bytes.length (.ok .nothing), ring.append bytes) := by
  induction bytes generalizing ring with
  | nil =>
    rw [h.append_nil]
    rfl
  | cons byte bytes ih =>
    have hsum : (byte :: bytes).length = bytes.length + 1 := List.length_cons
    have hone : [byte].length ≤ ring.free := by
      rw [List.length_singleton]
      omega
    have hrest : bytes.length ≤ (ring.append [byte]).free := by
      rw [free_append, List.length_singleton]
      omega
    have hpush : ring.update (.push byte) = (.ok .nothing, ring.append [byte]) := by
      rw [update, push_eq_append h (isFull_of_free_pos (by omega))]
      rfl
    have hboth : (ring.append [byte]).append bytes = ring.append (byte :: bytes) :=
      h.append_append hfit
    rw [List.map_cons, updates_cons hpush, ih (h.append hone) hrest, hboth]
    rfl

/-- Bytes that are held are all handed over, oldest first. -/
theorem Valid.updates_pop (h : ring.Valid) {count : Nat} (hheld : count ≤ ring.len) :
    ring.updates (List.replicate count .pop) =
      ((ring.toList.take count).map fun byte => .ok (.byte byte), ring.advance count) := by
  induction count generalizing ring with
  | zero =>
    rw [h.advance_zero]
    rfl
  | succ count ih =>
    have hlen := h.length_toList
    obtain ⟨byte, rest, hbytes⟩ : ∃ byte rest, ring.toList = byte :: rest :=
      List.exists_cons_of_ne_nil (h.toList_eq_nil_iff.not.2 (by omega))
    have hpop : ring.update .pop = (.ok (.byte byte), ring.advance 1) := by
      rw [update, h.pop_eq, hbytes]
      rfl
    have hleft : (ring.advance 1).toList = rest := by
      rw [h.toList_advance (by omega), hbytes]
      rfl
    have hheld' : count ≤ (ring.advance 1).len := Nat.le_sub_one_of_lt hheld
    rw [List.replicate_succ, updates_cons hpop, ih (h.advance (by omega)) hheld', hleft,
      advance_advance, Nat.add_comm 1, hbytes]
    rfl

/-! ## Requests that go through -/

theorem of_pushRange_ok {bytes : List UInt8} {offset length : Nat}
    (h : ring.pushRange bytes offset length = (.ok (), left)) :
    checkRange bytes.length offset length = .ok () ∧ length ≤ ring.free := by
  unfold pushRange at h
  cases hrange : checkRange bytes.length offset length with
  | error fault => simp [hrange] at h
  | ok _ =>
    refine ⟨rfl, ?_⟩
    by_contra hlack
    have hne : length ≠ 0 := by omega
    simp [hrange, hne, Nat.not_le.1 hlack] at h

theorem Valid.pushSlice_eq_ok_iff (h : ring.Valid) {bytes : List UInt8} :
    ring.pushSlice bytes = (.ok (), left) ↔
      bytes.length ≤ ring.free ∧ ring.append bytes = left := by
  constructor
  · intro hok
    have hfit := (of_pushRange_ok hok).2
    rw [h.pushSlice_eq hfit] at hok
    exact ⟨hfit, (Prod.mk.inj hok).2⟩
  · rintro ⟨hfit, rfl⟩
    exact h.pushSlice_eq hfit

theorem Valid.take_eq_ok_iff (h : ring.Valid) {count : Nat} {handed : List UInt8} :
    ring.take count = (.ok handed, left) ↔
      count ≤ ring.len ∧ ring.toList.take count = handed ∧ ring.advance count = left := by
  constructor
  · intro hok
    have hheld : count ≤ ring.len := by
      cases hcount : ring.checkCount count with
      | error fault => simp [take, hcount] at hok
      | ok _ => exact le_of_checkCount hcount
    rw [h.take_eq hheld] at hok
    obtain ⟨houtcome, hleft⟩ := Prod.mk.inj hok
    exact ⟨hheld, Except.ok.inj houtcome, hleft⟩
  · rintro ⟨hheld, rfl, rfl⟩
    exact h.take_eq hheld

/-- Two slices go in one after the other where they go in as one. -/
theorem Valid.pushSlice_append_iff (h : ring.Valid) (first second : List UInt8) :
    ring.pushSlice (first ++ second) = (.ok (), left) ↔
      ∃ between, ring.pushSlice first = (.ok (), between) ∧
        between.pushSlice second = (.ok (), left) := by
  have hsum : (first ++ second).length = first.length + second.length := List.length_append
  have hfree : (ring.append first).free = ring.free - first.length := ring.free_append first
  rw [h.pushSlice_eq_ok_iff]
  constructor
  · rintro ⟨hfit, rfl⟩
    have hfirst : first.length ≤ ring.free := by omega
    refine ⟨ring.append first, h.pushSlice_eq hfirst, ?_⟩
    exact (h.append hfirst).pushSlice_eq_ok_iff.2 ⟨by omega, h.append_append hfit⟩
  · rintro ⟨between, hok, hok'⟩
    obtain ⟨hfirst, rfl⟩ := h.pushSlice_eq_ok_iff.1 hok
    obtain ⟨hsecond, rfl⟩ := (h.append hfirst).pushSlice_eq_ok_iff.1 hok'
    have hfit : (first ++ second).length ≤ ring.free := by omega
    exact ⟨hfit, (h.append_append hfit).symm⟩

/-- Bytes leave in two lots where they leave as one. -/
theorem Valid.take_add_iff (h : ring.Valid) (m n : Nat) (handed : List UInt8) :
    ring.take (m + n) = (.ok handed, left) ↔
      ∃ between, ring.take m = (.ok (handed.take m), between) ∧
        between.take n = (.ok (handed.drop m), left) := by
  have hlen := h.length_toList
  rw [h.take_eq_ok_iff]
  constructor
  · rintro ⟨hheld, rfl, rfl⟩
    have hm : m ≤ ring.len := by omega
    refine ⟨ring.advance m, ?_, ?_⟩
    · rw [h.take_eq hm, List.take_take, Nat.min_eq_left (Nat.le_add_right m n)]
    · apply (h.advance hm).take_eq_ok_iff.2
      refine ⟨?_, ?_, advance_advance ring m n⟩
      · rw [len_advance]
        omega
      · rw [h.toList_advance hm, List.drop_take, Nat.add_sub_cancel_left]
  · rintro ⟨between, hok, hok'⟩
    obtain ⟨hm, hfirst, rfl⟩ := h.take_eq_ok_iff.1 hok
    obtain ⟨hn, hsecond, rfl⟩ := (h.advance hm).take_eq_ok_iff.1 hok'
    rw [len_advance] at hn
    refine ⟨by omega, ?_, (advance_advance ring m n).symm⟩
    rw [h.toList_advance hm] at hsecond
    rw [List.take_add, hfirst, hsecond, List.take_append_drop]

/-- A range that is accepted goes in as its bytes do. -/
theorem Valid.updates_push_range (h : ring.Valid) {bytes : List UInt8} {offset length : Nat}
    (hok : ring.pushRange bytes offset length = (.ok (), left)) :
    ((bytes.drop offset).take length).length = length ∧
      ring.updates (((bytes.drop offset).take length).map .push) =
        (List.replicate length (.ok .nothing), left) := by
  obtain ⟨hrange, hroom⟩ := of_pushRange_ok hok
  have hlength := length_of_checkRange hrange
  rw [h.pushRange_eq hrange hroom] at hok
  obtain ⟨-, rfl⟩ := Prod.mk.inj hok
  refine ⟨hlength, ?_⟩
  rw [h.updates_push (by omega), hlength]

/-! ## Whole runs byte by byte -/

/-- The changes of single bytes that a change stands for. -/
def Update.singles : Update → List Update
  | .clear => [.clear]
  | .push byte => [.push byte]
  | .pushSlice bytes => bytes.map .push
  | .pushRange bytes offset length => ((bytes.drop offset).take length).map .push
  | .pop => [.pop]
  | .take count => List.replicate count .pop
  | .discard count => List.replicate count .pop

/-- A run told byte by byte, without the changes that are refused. -/
def singly (ring : ByteRing) : List Update → List Update
  | [] => []
  | change :: changes =>
    let (outcome, left) := ring.update change
    if outcome.isOk then change.singles ++ left.singly changes else left.singly changes

/-- The changes all go through and lead to `left`. -/
structure Achieves (ring : ByteRing) (changes : List Update) (left : ByteRing) : Prop where
  accepted : ∀ outcome ∈ (ring.updates changes).1, outcome.isOk = true
  reached : (ring.updates changes).2 = left

namespace Achieves

variable {between : ByteRing}

theorem append {first second : List Update} (h : ring.Achieves first between)
    (h' : between.Achieves second left) : ring.Achieves (first ++ second) left := by
  obtain ⟨haccepted, rfl⟩ := h
  refine ⟨?_, ?_⟩
  · intro outcome houtcome
    rw [updates_append] at houtcome
    rcases List.mem_append.1 houtcome with hfirst | hsecond
    · exact haccepted outcome hfirst
    · exact h'.accepted outcome hsecond
  · rw [updates_append]
    exact h'.reached

theorem of_updates {changes : List Update} {outcomes : List (Except Fault Removed)}
    (h : ring.updates changes = (outcomes, left))
    (haccepted : ∀ outcome ∈ outcomes, outcome.isOk = true) : ring.Achieves changes left where
  accepted := by
    rw [h]
    exact haccepted
  reached := congrArg Prod.snd h

theorem of_single {change : Update} {handed : Removed}
    (h : ring.update change = (.ok handed, left)) : ring.Achieves [change] left := by
  apply of_updates (updates_cons h [])
  intro outcome houtcome
  obtain rfl := List.mem_singleton.1 houtcome
  rfl

end Achieves

theorem ok_of_handing {α : Type} {make : α → Removed} {result : Except Fault α × ByteRing}
    {handed : Removed} (h : handing make result = (.ok handed, left)) :
    ∃ value, result = (.ok value, left) := by
  obtain ⟨outcome, after⟩ := result
  obtain ⟨houtcome, rfl⟩ := Prod.mk.inj h
  cases outcome with
  | error fault => cases houtcome
  | ok value => exact ⟨value, rfl⟩

theorem Valid.achieves_push (h : ring.Valid) {bytes : List UInt8} {offset length : Nat}
    (hok : ring.pushRange bytes offset length = (.ok (), left)) :
    ring.Achieves (((bytes.drop offset).take length).map .push) left := by
  apply Achieves.of_updates (h.updates_push_range hok).2
  intro outcome houtcome
  obtain rfl := List.eq_of_mem_replicate houtcome
  rfl

theorem Valid.achieves_pop (h : ring.Valid) {count : Nat} (hheld : count ≤ ring.len) :
    ring.Achieves (List.replicate count .pop) (ring.advance count) := by
  apply Achieves.of_updates (h.updates_pop hheld)
  intro outcome houtcome
  obtain ⟨byte, -, rfl⟩ := List.mem_map.1 houtcome
  rfl

/-- A change that goes through leads where its single bytes lead. -/
theorem Valid.achieves_singles (h : ring.Valid) {change : Update} {handed : Removed}
    (hok : ring.update change = (.ok handed, left)) : ring.Achieves change.singles left := by
  cases change with
  | clear => exact .of_single hok
  | push byte => exact .of_single hok
  | pop => exact .of_single hok
  | pushSlice bytes =>
    obtain ⟨_, hpush⟩ := ok_of_handing hok
    have hbytes := h.achieves_push hpush
    rwa [List.drop_zero, List.take_length] at hbytes
  | pushRange bytes offset length =>
    obtain ⟨_, hpush⟩ := ok_of_handing hok
    exact h.achieves_push hpush
  | take count =>
    obtain ⟨bytes, htake⟩ := ok_of_handing hok
    obtain ⟨hheld, -, rfl⟩ := h.take_eq_ok_iff.1 htake
    exact h.achieves_pop hheld
  | discard count =>
    obtain ⟨_, hdiscard⟩ := ok_of_handing hok
    have hheld := (len_discard hdiscard).1
    rw [h.discard_eq hheld] at hdiscard
    obtain ⟨-, rfl⟩ := Prod.mk.inj hdiscard
    exact h.achieves_pop hheld

/-- Told byte by byte, a run goes through and leads to the ring that it leads to. -/
theorem Valid.achieves_singly (h : ring.Valid) (changes : List Update) :
    ring.Achieves (ring.singly changes) (ring.updates changes).2 := by
  induction changes generalizing ring with
  | nil =>
    refine ⟨?_, rfl⟩
    intro outcome houtcome
    cases houtcome
  | cons change changes ih =>
    have hnext := ih (Leads.of_moved (h.moved_update change) |>.valid h)
    rcases hupdate : ring.update change with ⟨fault | handed, left⟩
    · have hleft := h.update_of_error (congrArg Prod.fst hupdate)
      rw [hupdate] at hnext hleft
      obtain rfl : left = ring := hleft
      simp only [singly, updates, hupdate]
      exact hnext
    · rw [hupdate] at hnext
      simp only [singly, updates, hupdate]
      exact (h.achieves_singles hupdate).append hnext

/-- What is taken in or removed at once leaves the storage, the cursors and the length that single
bytes leave, and hands over the same bytes. So slices and removals can be cut anywhere, and a whole
run can be told byte by byte. -/
theorem bulk_requests_as_single_bytes (h : ring.Reachable) :
    (∀ bytes offset length left, ring.pushRange bytes offset length = (.ok (), left) →
      ((bytes.drop offset).take length).length = length ∧
        ring.updates (((bytes.drop offset).take length).map .push) =
          (List.replicate length (.ok .nothing), left)) ∧
    (∀ count ≤ ring.len, ∃ popped left, popped.length = count ∧
      ring.updates (List.replicate count .pop) =
        (popped.map fun byte => .ok (.byte byte), left) ∧
      ring.take count = (.ok popped, left) ∧
      ring.discard count = (.ok (), left) ∧
      ∀ buffer, buffer.length = count → ring.read buffer = ⟨.ok count, popped, left⟩) ∧
    (∀ first second left, ring.pushSlice (first ++ second) = (.ok (), left) ↔
      ∃ between, ring.pushSlice first = (.ok (), between) ∧
        between.pushSlice second = (.ok (), left)) ∧
    (∀ m n handed left, ring.take (m + n) = (.ok handed, left) ↔
      ∃ between, ring.take m = (.ok (handed.take m), between) ∧
        between.take n = (.ok (handed.drop m), left)) ∧
    ∀ changes, ring.Achieves (ring.singly changes) (ring.updates changes).2 := by
  have hvalid := h.valid
  refine ⟨?_, ?_, ?_, ?_, hvalid.achieves_singly⟩
  · intro bytes offset length left hok
    exact hvalid.updates_push_range hok
  · intro count hheld
    refine ⟨ring.toList.take count, ring.advance count, ?_, hvalid.updates_pop hheld,
      hvalid.take_eq hheld, hvalid.discard_eq hheld, ?_⟩
    · rw [List.length_take, hvalid.length_toList, Nat.min_eq_left hheld]
    · rintro buffer rfl
      rw [hvalid.read_eq, Nat.min_eq_left hheld, List.drop_of_length_le hheld, List.append_nil]
  · intro first second left
    exact hvalid.pushSlice_append_iff first second
  · intro m n handed left
    exact hvalid.take_add_iff m n handed

/-- A ring of three bytes whose cursors stand in slot 2. Two of the three bytes taken in fill the
storage up to its end, so the first copy ends there; the third goes to slot 0. -/
theorem bulk_requests_as_single_bytes_wrapped :
    Reachable ⟨#[5, 6, 0, 0], 2, 2, 0⟩ ∧
      pushRange ⟨#[5, 6, 0, 0], 2, 2, 0⟩ [1, 7, 8, 9] 1 3 = (.ok (), ⟨#[9, 6, 7, 8], 2, 1, 3⟩) ∧
      updates ⟨#[5, 6, 0, 0], 2, 2, 0⟩ [.push 7, .push 8, .push 9] =
        ([.ok .nothing, .ok .nothing, .ok .nothing], ⟨#[9, 6, 7, 8], 2, 1, 3⟩) ∧
      Reachable ⟨#[9, 6, 7, 8], 2, 1, 3⟩ ∧ 3 ≤ len ⟨#[9, 6, 7, 8], 2, 1, 3⟩ ∧
      updates ⟨#[9, 6, 7, 8], 2, 1, 3⟩ [.pop, .pop, .pop] =
        ([.ok (.byte 7), .ok (.byte 8), .ok (.byte 9)], ⟨#[9, 6, 7, 8], 1, 1, 0⟩) ∧
      (read ⟨#[9, 6, 7, 8], 2, 1, 3⟩ [0, 0, 0]).buffer = [7, 8, 9] ∧
      ∃ between, take ⟨#[9, 6, 7, 8], 2, 1, 3⟩ 1 = (.ok [7], between) ∧
        between.take 2 = (.ok [8, 9], ⟨#[9, 6, 7, 8], 1, 1, 0⟩) := by
  have hmake : (Recipe.ofBytesWithCapacity [5, 6] 3).make .ordinary =
      .ok ⟨#[5, 6, 0, 0], 0, 2, 2⟩ := rfl
  have hempty : Reachable ⟨#[5, 6, 0, 0], 2, 2, 0⟩ :=
    (Reachable.made hmake).answered .ordinary (.update (.discard 2))
  have hfull : Reachable ⟨#[9, 6, 7, 8], 2, 1, 3⟩ :=
    hempty.answered .ordinary (.update (.pushRange [1, 7, 8, 9] 1 3))
  obtain ⟨hpush, -⟩ := bulk_requests_as_single_bytes hempty
  obtain ⟨-, hpop, -, htake, -⟩ := bulk_requests_as_single_bytes hfull
  have hheld : 3 ≤ len ⟨#[9, 6, 7, 8], 2, 1, 3⟩ := by decide
  obtain ⟨popped, left, -, hpops, htaken, -, hread⟩ := hpop 3 hheld
  cases htaken
  have hbuffer := congrArg Reading.buffer (hread [0, 0, 0] rfl)
  exact ⟨hempty, rfl, (hpush [1, 7, 8, 9] 1 3 _ rfl).2, hfull, hheld, hpops, hbuffer,
    (htake 1 2 [7, 8, 9] _).1 rfl⟩

end CyclicQueue.ByteRing
