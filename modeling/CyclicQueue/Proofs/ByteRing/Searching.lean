import CyclicQueue.Proofs.ByteRing.Looking
import CyclicQueue.Proofs.ByteRing.Reachable
import Mathlib.Order.Bounds.Basic

/-!
# The first place where a needle stands

A search answers with the least place, from its start on, where the whole needle stands in the
contents. Wherever the contents go round the end of the storage, the answer is that of the plain
list.
-/

namespace CyclicQueue

namespace Bytes

/-- The places from `start` on where all of `needle` stands in `bytes`. -/
def places (bytes needle : List UInt8) (start : Nat) : Set Nat :=
  {index | start ≤ index ∧ index + needle.length ≤ bytes.length ∧
    (bytes.drop index).take needle.length = needle}

variable {bytes needle : List UInt8} {start index : Nat}

theorem mem_places_iff (hne : needle ≠ []) :
    index ∈ places bytes needle start ↔ start ≤ index ∧ OccursAt bytes needle index := by
  constructor
  · rintro ⟨hstart, -, hstands⟩
    exact ⟨hstart, occursAt_iff.2 hstands⟩
  · rintro ⟨hstart, hoccurs⟩
    exact ⟨hstart, hoccurs.end_le hne, occursAt_iff.1 hoccurs⟩

theorem isLeast_places_iff (hne : needle ≠ []) :
    IsLeast (places bytes needle start) index ↔
      start ≤ index ∧ OccursAt bytes needle index ∧
        ∀ earlier, start ≤ earlier → earlier < index → ¬ OccursAt bytes needle earlier := by
  constructor
  · rintro ⟨hmem, hleast⟩
    obtain ⟨hstart, hoccurs⟩ := (mem_places_iff hne).1 hmem
    refine ⟨hstart, hoccurs, ?_⟩
    intro earlier hge hlt hin
    have := hleast ((mem_places_iff hne).2 ⟨hge, hin⟩)
    omega
  · rintro ⟨hstart, hoccurs, hbefore⟩
    refine ⟨(mem_places_iff hne).2 ⟨hstart, hoccurs⟩, ?_⟩
    intro place hplace
    obtain ⟨hge, hin⟩ := (mem_places_iff hne).1 hplace
    by_contra hlt
    exact hbefore place hge (Nat.not_le.1 hlt) hin

theorem places_eq_empty_iff (hne : needle ≠ []) :
    places bytes needle start = ∅ ↔ ∀ index, start ≤ index → ¬ OccursAt bytes needle index := by
  rw [Set.eq_empty_iff_forall_notMem]
  apply forall_congr'
  intro index
  rw [mem_places_iff hne, not_and]

/-- What stands at place 0 stands at the beginning. -/
theorem isLeast_places_zero_iff (hne : needle ≠ []) :
    IsLeast (places bytes needle 0) 0 ↔ needle <+: bytes := by
  rw [isLeast_places_iff hne]
  constructor
  · rintro ⟨-, hoccurs, -⟩
    exact hoccurs
  · intro hprefix
    refine ⟨Nat.le_refl 0, hprefix, ?_⟩
    intro earlier _ hlt
    cases hlt

end Bytes

namespace ByteRing

variable {ring : ByteRing} {needle : List UInt8} {start : Nat}

theorem search_nil (ring : ByteRing) (start : Nat) : ring.search [] start = none := rfl

theorem Valid.search_isLeast_iff (h : ring.Valid) {index : Nat} :
    ring.search needle start = some index ↔
      needle ≠ [] ∧ IsLeast (Bytes.places ring.toList needle start) index := by
  rw [h.search_eq_some_iff]
  apply and_congr_right
  intro hne
  exact (Bytes.isLeast_places_iff hne).symm

theorem Valid.search_isEmpty_iff (h : ring.Valid) :
    ring.search needle start = none ↔
      needle = [] ∨ Bytes.places ring.toList needle start = ∅ := by
  by_cases hnil : needle = []
  · subst hnil
    exact iff_of_true (search_nil ring start) (.inl rfl)
  · rw [h.search_eq_none_iff hnil, or_iff_right hnil, Bytes.places_eq_empty_iff hnil]

theorem Valid.findFrom_eq (h : ring.Valid) (needle : List UInt8) (start : Nat) :
    ring.findFrom needle start =
      if ring.toList.length ≤ start then .error (.badArgument .searchStartOutOfRange)
      else .ok (ring.search needle start) := by
  rw [findFrom, h.length_toList]

/-- What the searches for a needle answer, told by the places where it stands. -/
structure Finds (ring : ByteRing) (needle : List UInt8) : Prop where
  findFrom_error_iff : ∀ start fault, ring.findFrom needle start = .error fault ↔
    ring.toList.length ≤ start ∧ fault = .badArgument .searchStartOutOfRange
  findFrom_some_iff : ∀ start index, ring.findFrom needle start = .ok (some index) ↔
    start < ring.toList.length ∧ needle ≠ [] ∧
      IsLeast (Bytes.places ring.toList needle start) index
  findFrom_none_iff : ∀ start, ring.findFrom needle start = .ok none ↔
    start < ring.toList.length ∧
      (needle = [] ∨ Bytes.places ring.toList needle start = ∅)
  find_some_iff : ∀ index, ring.find needle = some index ↔
    needle ≠ [] ∧ IsLeast (Bytes.places ring.toList needle 0) index
  find_none_iff : ring.find needle = none ↔
    needle = [] ∨ Bytes.places ring.toList needle 0 = ∅
  findFrom_zero : ring.toList ≠ [] → ring.findFrom needle 0 = .ok (ring.find needle)
  find_empty : ring.toList = [] → ring.find needle = none

theorem Valid.finds (h : ring.Valid) (needle : List UInt8) : ring.Finds needle where
  findFrom_error_iff start fault := by
    rw [h.findFrom_eq]
    split
    · next hbehind => simp [hbehind, eq_comm]
    · next hinside => simp [hinside]
  findFrom_some_iff start index := by
    rw [h.findFrom_eq, ← h.search_isLeast_iff]
    split
    · next hbehind => simp [Nat.not_lt.2 hbehind]
    · next hinside => simp [Nat.not_le.1 hinside]
  findFrom_none_iff start := by
    rw [h.findFrom_eq, ← h.search_isEmpty_iff]
    split
    · next hbehind => simp [Nat.not_lt.2 hbehind]
    · next hinside => simp [Nat.not_le.1 hinside]
  find_some_iff index := h.search_isLeast_iff
  find_none_iff := h.search_isEmpty_iff
  findFrom_zero hsome := by
    have hpos := List.length_pos_iff.2 hsome
    rw [h.findFrom_eq, if_neg (Nat.not_le.2 hpos)]
    rfl
  find_empty hnone := by
    apply h.search_isEmpty_iff.2
    by_cases hnil : needle = []
    · exact .inl hnil
    · -- a needle that stands somewhere is no longer than the contents
      refine .inr (Set.eq_empty_iff_forall_notMem.2 ?_)
      rintro index ⟨-, hend, -⟩
      have hpos := List.length_pos_iff.2 hnil
      rw [hnone, List.length_nil] at hend
      omega

/-- What a comparison with the beginning, the end or the whole of the contents answers. -/
structure Compares (ring : ByteRing) (bytes : List UInt8) : Prop where
  startsWith_iff : ring.startsWith bytes = true ↔ bytes ≠ [] ∧ bytes <+: ring.toList
  startsWith_iff_find : ring.startsWith bytes = true ↔ ring.find bytes = some 0
  endsWith_iff : ring.endsWith bytes = true ↔ bytes ≠ [] ∧ bytes <:+ ring.toList
  equalsBytes_iff : ring.equalsBytes bytes = true ↔
    ring.startsWith bytes = true ∨ bytes = [] ∧ ring.toList = []

theorem Valid.compares (h : ring.Valid) (bytes : List UInt8) : ring.Compares bytes where
  startsWith_iff := h.startsWith_iff bytes
  startsWith_iff_find := by
    rw [h.startsWith_iff, find, h.search_isLeast_iff]
    apply and_congr_right
    intro hne
    exact (Bytes.isLeast_places_zero_iff hne).symm
  endsWith_iff := h.endsWith_iff bytes
  equalsBytes_iff := by
    rw [equalsBytes, Bool.or_eq_true, Bool.and_eq_true, List.isEmpty_iff, isEmpty, beq_iff_eq,
      h.toList_eq_nil_iff]
    exact or_comm

/-- Every search answers with the least place where the needle stands, and every comparison as the
list of the contents does, in whatever way the contents lie in the storage. -/
theorem searches_find_least_place (h : ring.Reachable) (bytes : List UInt8) :
    ring.Finds bytes ∧ ring.Compares bytes :=
  ⟨h.valid.finds bytes, h.valid.compares bytes⟩

/-- The contents go round the end of the storage behind their third byte. The second place of the
needle lies across the end, and none lies behind it. -/
theorem searches_find_least_place_across_end :
    Reachable ⟨#[2, 3, 9, 1, 2, 1], 3, 2, 5⟩ ∧
      slices ⟨#[2, 3, 9, 1, 2, 1], 3, 2, 5⟩ = ⟨[1, 2, 1], [2, 3]⟩ ∧
      IsLeast (Bytes.places [1, 2, 1, 2, 3] [1, 2] 0) 0 ∧
      IsLeast (Bytes.places [1, 2, 1, 2, 3] [1, 2] 1) 2 ∧
      Bytes.places [1, 2, 1, 2, 3] [1, 2] 3 = ∅ ∧
      findFrom ⟨#[2, 3, 9, 1, 2, 1], 3, 2, 5⟩ [1, 2] 5 =
        .error (.badArgument .searchStartOutOfRange) ∧
      startsWith ⟨#[2, 3, 9, 1, 2, 1], 3, 2, 5⟩ [1, 2] = true ∧
      endsWith ⟨#[2, 3, 9, 1, 2, 1], 3, 2, 5⟩ [1, 2] = false ∧
      equalsBytes ⟨#[2, 3, 9, 1, 2, 1], 3, 2, 5⟩ [1, 2] = true := by
  have hmake : (Recipe.ofBytesWithCapacity [9, 9, 9, 1] 5).make .ordinary =
      .ok ⟨#[9, 9, 9, 1, 0, 0], 0, 4, 4⟩ := rfl
  have hreach : Reachable ⟨#[2, 3, 9, 1, 2, 1], 3, 2, 5⟩ :=
    ((Reachable.made hmake).answered .ordinary (.update (.take 3))).answered .ordinary
      (.update (.pushSlice [2, 1, 2, 3]))
  obtain ⟨hfinds, hcompares⟩ := searches_find_least_place hreach [1, 2]
  obtain ⟨-, hleast⟩ := (hfinds.find_some_iff 0).1 rfl
  obtain ⟨-, -, hlater⟩ := (hfinds.findFrom_some_iff 1 2).1 rfl
  obtain ⟨-, hnone⟩ := (hfinds.findFrom_none_iff 3).1 rfl
  have hstarts := hcompares.startsWith_iff_find.2 rfl
  have hends : endsWith ⟨#[2, 3, 9, 1, 2, 1], 3, 2, 5⟩ [1, 2] = false := by
    rw [← Bool.not_eq_true, hcompares.endsWith_iff]
    decide
  exact ⟨hreach, rfl, hleast, hlater, hnone.resolve_left (List.cons_ne_nil _ _),
    (hfinds.findFrom_error_iff 5 _).2 ⟨Nat.le_refl 5, rfl⟩, hstarts, hends,
    hcompares.equalsBytes_iff.2 (.inl hstarts)⟩

end ByteRing

end CyclicQueue
