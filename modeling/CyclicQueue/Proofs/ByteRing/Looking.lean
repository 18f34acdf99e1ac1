import CyclicQueue.ByteRing.Export
import CyclicQueue.ByteRing.Search
import CyclicQueue.Proofs.ByteRing.Changes
import CyclicQueue.Proofs.Bytes.Splitting

/-!
# Looking into a ring

What a ring shows of a range or of a needle is what the list of its contents shows. The place where
the contents go round the end of the storage cuts ranges and needles in two and has no other
effect.
-/

namespace CyclicQueue.ByteRing

variable {ring : ByteRing}

theorem Valid.get_eq (h : ring.Valid) (index : Nat) :
    ring.get index =
      if ring.capacity ≤ index then .error (.badArgument .indexAboveCapacity)
      else
        match ring.toList[index]? with
        | none => .error (.tooSmall (index + 1) ring.toList.length)
        | some byte => .ok byte := by
  unfold get
  by_cases hcapacity : ring.capacity ≤ index
  · rw [if_pos hcapacity, if_pos hcapacity]
  · rw [if_neg hcapacity, if_neg hcapacity]
    by_cases hlen : ring.len ≤ index
    · rw [if_pos hlen, List.getElem?_eq_none (by rw [h.length_toList]; exact hlen),
        h.length_toList]
    · rw [if_neg hlen, h.getD_slot (Nat.not_le.1 hlen)]

/-! ## Ranges -/

/-- A range that is accepted is that part of the contents. -/
theorem Valid.range_of_checkRange (h : ring.Valid) {offset length : Nat}
    (hrange : checkRange ring.len offset length = .ok ()) :
    (ring.runs offset length).bytes = (ring.toList.drop offset).take length :=
  h.range_eq (checkRange_eq_ok_iff.1 hrange).2

theorem Valid.exportReserving_eq (h : ring.Valid) (memory : Memory)
    (offset length capacity : Nat) :
    ring.exportReserving memory offset length capacity =
      match checkRange ring.toList.length offset length with
      | .error fault => .error fault
      | .ok () =>
        if capacity < length then .error (.badArgument .capacityBelowLength)
        else (memory.reserve capacity).map fun _ => (ring.toList.drop offset).take length := by
  unfold exportReserving
  rw [h.length_toList]
  cases hrange : checkRange ring.len offset length with
  | error fault => rfl
  | ok _ =>
    rw [h.range_of_checkRange hrange]
    by_cases hbelow : capacity < length
    · simp only [if_pos hbelow]
      rfl
    · simp only [if_neg hbelow]
      cases memory.reserve capacity <;> rfl

/-- Two windows written one behind the other are one window. -/
theorem overwrite_overwrite (target : List UInt8) (start : Nat) (first second : List UInt8) :
    overwrite (overwrite target start first) (start + first.length) second =
      overwrite target start (first ++ second) := by
  induction target generalizing start first with
  | nil => rfl
  | cons byte target ih =>
    cases start with
    | zero =>
      cases first with
      | nil => cases second <;> rfl
      | cons head first =>
        rw [List.length_cons, ← Nat.add_assoc]
        simp only [overwrite, List.cons_append]
        rw [ih]
    | succ start =>
      rw [Nat.add_right_comm]
      simp only [overwrite]
      rw [ih]

theorem Valid.copyTo_eq (h : ring.Valid) (offset length : Nat) (target : List UInt8)
    (targetOffset : Nat) :
    ring.copyTo offset length target targetOffset =
      match checkRange ring.toList.length offset length with
      | .error fault => (.error fault, target)
      | .ok () =>
        match checkRange target.length targetOffset length with
        | .error fault => (.error fault, target)
        | .ok () =>
          (.ok (), overwrite target targetOffset ((ring.toList.drop offset).take length)) := by
  unfold copyTo
  rw [h.length_toList]
  cases hrange : checkRange ring.len offset length with
  | error fault => rfl
  | ok _ =>
    cases checkRange target.length targetOffset length with
    | error fault => rfl
    | ok _ =>
      simp only
      rw [← h.range_of_checkRange hrange, Runs.bytes, ← overwrite_overwrite]
      cases htail : (ring.runs offset length).tail with
      | nil =>
        have hkeep : ∀ (target : List UInt8) (start : Nat), overwrite target start [] = target := by
          intro target
          induction target with
          | nil => intro start; rfl
          | cons byte target ih =>
            intro start
            cases start with
            | zero => rfl
            | succ start => rw [overwrite, ih]
        simp [hkeep]
      | cons byte tail => rfl

/-! ## Needles -/

/-- A needle that is cut at the length of the first piece agrees with both pieces where it agrees
with their bytes. -/
theorem cut_iff (head tail needle : List UInt8) :
    head = needle.take head.length ∧ tail = needle.drop head.length ↔ head ++ tail = needle := by
  constructor
  · rintro ⟨hhead, htail⟩
    calc
      head ++ tail = needle.take head.length ++ needle.drop head.length := by rw [← hhead, ← htail]
      _ = needle := List.take_append_drop _ _
  · rintro rfl
    rw [List.take_left, List.drop_left]
    exact ⟨rfl, rfl⟩

theorem Valid.matchesAt_iff (h : ring.Valid) {needle : List UInt8} {offset : Nat}
    (hend : offset + needle.length ≤ ring.len) :
    ring.matchesAt offset needle = true ↔ Bytes.OccursAt ring.toList needle offset := by
  have hbytes : (ring.runs offset needle.length).head ++ (ring.runs offset needle.length).tail =
      (ring.toList.drop offset).take needle.length := h.range_eq hend
  rw [Bytes.occursAt_iff, ← hbytes, matchesAt, Bool.and_eq_true, beq_iff_eq, beq_iff_eq]
  exact cut_iff _ _ _

theorem Valid.startsWith_iff (h : ring.Valid) (bytes : List UInt8) :
    ring.startsWith bytes = true ↔ bytes ≠ [] ∧ bytes <+: ring.toList := by
  rw [startsWith, Bool.and_eq_true, Bool.and_eq_true, decide_eq_true_eq, Bool.not_eq_true',
    List.isEmpty_eq_false_iff]
  constructor
  · rintro ⟨⟨hne, hlen⟩, hmatch⟩
    exact ⟨hne, (h.matchesAt_iff (by omega)).1 hmatch⟩
  · rintro ⟨hne, hprefix⟩
    have hlen := hprefix.length_le
    rw [h.length_toList] at hlen
    exact ⟨⟨hne, hlen⟩, (h.matchesAt_iff (by omega)).2 hprefix⟩

theorem Valid.endsWith_iff (h : ring.Valid) (bytes : List UInt8) :
    ring.endsWith bytes = true ↔ bytes ≠ [] ∧ bytes <:+ ring.toList := by
  rw [endsWith, Bool.and_eq_true, Bool.and_eq_true, decide_eq_true_eq, Bool.not_eq_true',
    List.isEmpty_eq_false_iff, List.suffix_iff_eq_drop, h.length_toList]
  constructor
  · rintro ⟨⟨hne, hlen⟩, hmatch⟩
    have hoccurs := (h.matchesAt_iff (by omega)).1 hmatch
    refine ⟨hne, hoccurs.eq_of_length ?_⟩
    rw [List.length_drop, h.length_toList]
    omega
  · rintro ⟨hne, hsuffix⟩
    have hlen : bytes.length ≤ ring.len := by
      rw [hsuffix, List.length_drop, h.length_toList]
      omega
    refine ⟨⟨hne, hlen⟩, (h.matchesAt_iff (by omega)).2 ?_⟩
    exact ⟨[], (List.append_nil bytes).trans hsuffix⟩

theorem Valid.search_eq_some_iff (h : ring.Valid) {needle : List UInt8} {start offset : Nat} :
    ring.search needle start = some offset ↔
      needle ≠ [] ∧ start ≤ offset ∧ Bytes.OccursAt ring.toList needle offset ∧
        ∀ earlier, start ≤ earlier → earlier < offset →
          ¬ Bytes.OccursAt ring.toList needle earlier := by
  constructor
  · intro hfound
    obtain ⟨hne, hstart, hend⟩ := search_spec hfound
    unfold search at hfound
    split at hfound
    · cases hfound
    · rw [List.find?_range'_eq_some] at hfound
      obtain ⟨hmatch, -, hbefore⟩ := hfound
      refine ⟨hne, hstart, (h.matchesAt_iff hend).1 hmatch, ?_⟩
      intro earlier hge hlt hoccurs
      have hno := hbefore earlier hge hlt
      rw [(h.matchesAt_iff (by omega)).2 hoccurs] at hno
      cases hno
  · rintro ⟨hne, hstart, hoccurs, hbefore⟩
    have hend := hoccurs.end_le hne
    rw [h.length_toList] at hend
    unfold search
    rw [if_neg (by simp [hne]; omega), List.find?_range'_eq_some]
    refine ⟨(h.matchesAt_iff hend).2 hoccurs, List.mem_range'_1.2 (by omega), ?_⟩
    intro earlier hge hlt
    rw [Bool.not_eq_true', ← Bool.not_eq_true, h.matchesAt_iff (by omega)]
    exact hbefore earlier hge hlt

theorem Valid.search_eq_none_iff (h : ring.Valid) {needle : List UInt8} (hne : needle ≠ [])
    {start : Nat} :
    ring.search needle start = none ↔
      ∀ offset, start ≤ offset → ¬ Bytes.OccursAt ring.toList needle offset := by
  constructor
  · intro hnone offset
    induction offset using Nat.strongRecOn with
    | _ offset ih =>
      intro hstart hoccurs
      -- a first occurrence would have been found
      have hfound := h.search_eq_some_iff.2 ⟨hne, hstart, hoccurs, fun e hge hlt => ih e hlt hge⟩
      rw [hnone] at hfound
      cases hfound
  · intro hnever
    cases hsearch : ring.search needle start with
    | none => rfl
    | some offset =>
      obtain ⟨-, hstart, hoccurs, -⟩ := h.search_eq_some_iff.1 hsearch
      exact absurd hoccurs (hnever offset hstart)

/-- A search from `start` on breaks what follows `start` at its first mark. -/
theorem Valid.breakAt?_of_search (h : ring.Valid) {needle : List UInt8} {start offset : Nat}
    (hsearch : ring.search needle start = some offset) :
    Bytes.breakAt? needle (ring.toList.drop start) =
      some ((ring.toList.drop start).take (offset - start),
        ring.toList.drop (offset + needle.length)) := by
  obtain ⟨hne, hstart, hoccurs, hbefore⟩ := h.search_eq_some_iff.1 hsearch
  have hshift : ∀ k, Bytes.OccursAt (ring.toList.drop start) needle k ↔
      Bytes.OccursAt ring.toList needle (start + k) := by
    intro k
    rw [Bytes.OccursAt, Bytes.OccursAt, List.drop_drop]
  rw [Bytes.breakAt?_of_occursAt hne ((hshift _).2 (Nat.add_sub_cancel' hstart ▸ hoccurs)),
    List.drop_drop, show start + (offset - start + needle.length) = offset + needle.length by omega]
  intro earlier hlt hin
  exact hbefore (start + earlier) (by omega) (by omega) ((hshift earlier).1 hin)

theorem Valid.breakAt?_of_search_none (h : ring.Valid) {needle : List UInt8} (hne : needle ≠ [])
    {start : Nat} (hsearch : ring.search needle start = none) :
    Bytes.breakAt? needle (ring.toList.drop start) = none := by
  apply Bytes.breakAt?_eq_none
  intro offset hoccurs
  rw [Bytes.OccursAt, List.drop_drop] at hoccurs
  exact (h.search_eq_none_iff hne).1 hsearch (start + offset) (by omega) hoccurs

/-- Searching on behind every match meets the marks that cutting meets. -/
theorem Valid.countFrom_eq (h : ring.Valid) {needle : List UInt8} (hne : needle ≠ [])
    (start : Nat) :
    ring.countFrom needle start = (Bytes.split needle (ring.toList.drop start)).1.length := by
  fun_induction countFrom ring needle start with
  | case1 start hsearch =>
    rw [Bytes.split_of_none (h.breakAt?_of_search_none hne hsearch), List.length_nil]
  | case2 start offset hsearch ih =>
    rw [Bytes.split_of_some hne (h.breakAt?_of_search hsearch), List.length_cons, ih]

theorem Valid.occurrences_eq (h : ring.Valid) (needle : List UInt8) :
    ring.occurrences needle =
      if needle = [] then none else some (Bytes.split needle ring.toList).1.length := by
  unfold occurrences
  by_cases hne : needle = []
  · rw [if_pos hne, if_pos (List.isEmpty_iff.2 hne)]
  · rw [if_neg hne, if_neg (by rwa [List.isEmpty_iff]), h.countFrom_eq hne, List.drop_zero]

end CyclicQueue.ByteRing
