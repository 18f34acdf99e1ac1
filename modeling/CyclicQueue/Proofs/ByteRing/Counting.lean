import CyclicQueue.Proofs.ByteRing.Looking
import CyclicQueue.Proofs.ByteRing.Reachable
import Mathlib.Combinatorics.Enumerative.DoubleCounting
import Mathlib.Data.List.Pairwise

/-!
# Counting needles that do not overlap

Counting goes on right behind every match. Any other place where the needle stands begins inside one
of the matches met, and places that do not overlap begin inside different ones. So no choice of such
places is larger than what is counted.
-/

namespace CyclicQueue

namespace Bytes

/-- Stretches of `length` bytes from `i` and from `j` on have no byte in common. -/
def Apart (length i j : Nat) : Prop :=
  i + length ≤ j ∨ j + length ≤ i

instance (length : Nat) : Std.Symm (Apart length) where
  symm _ _ := Or.symm

/-- Places in `bytes` where `needle` stands, of which no two overlap. -/
structure Packing (bytes needle : List UInt8) (places : Finset Nat) : Prop where
  occurs : ∀ place ∈ places, OccursAt bytes needle place
  apart : (places : Set Nat).Pairwise (Apart needle.length)

/-- How many places of `bytes` can be chosen where `needle` stands, without any two overlapping. -/
def packingSizes (bytes needle : List UInt8) : Set Nat :=
  {size | ∃ places, Packing bytes needle places ∧ places.card = size}

theorem occursAt_singleton_iff {bytes : List UInt8} {byte : UInt8} {index : Nat} :
    OccursAt bytes [byte] index ↔ bytes[index]? = some byte := by
  rw [OccursAt, ← List.head?_drop]
  cases bytes.drop index with
  | nil => simp
  | cons head rest => simp [List.cons_prefix_cons, eq_comm]

/-- Single bytes never overlap, so all places where one stands can be chosen. -/
theorem isGreatest_packingSizes_singleton (bytes : List UInt8) (byte : UInt8) :
    IsGreatest (packingSizes bytes [byte])
      ((Finset.range bytes.length).filter fun index => bytes[index]? = some byte).card := by
  constructor
  · refine ⟨_, ⟨?_, ?_⟩, rfl⟩
    · intro place hplace
      exact occursAt_singleton_iff.2 (Finset.mem_filter.1 hplace).2
    · intro i _ j _ hij
      exact Nat.lt_or_gt_of_ne hij
  · rintro size ⟨places, hplaces, rfl⟩
    apply Finset.card_le_card
    intro place hplace
    have hbyte := occursAt_singleton_iff.1 (hplaces.occurs place hplace)
    obtain ⟨hlt, -⟩ := List.getElem?_eq_some_iff.1 hbyte
    exact Finset.mem_filter.2 ⟨Finset.mem_range.2 hlt, hbyte⟩

end Bytes

namespace ByteRing

/-- The places where searches meet `needle` that go on right behind every match, until none is left.
-/
inductive Scans (ring : ByteRing) (needle : List UInt8) : Nat → List Nat → Prop
  | stop {start : Nat} (hsearch : ring.search needle start = none) : Scans ring needle start []
  | hit {start offset : Nat} {hits : List Nat} (hsearch : ring.search needle start = some offset)
    (hrest : Scans ring needle (offset + needle.length) hits) :
    Scans ring needle start (offset :: hits)

variable {ring : ByteRing} {needle : List UInt8} {start : Nat} {hits : List Nat}

/-- Searching on behind every match comes to an end. -/
theorem exists_scans (ring : ByteRing) (needle : List UInt8) (start : Nat) :
    ∃ hits, Scans ring needle start hits := by
  fun_induction countFrom ring needle start with
  | case1 start hsearch => exact ⟨[], .stop hsearch⟩
  | case2 start offset hsearch ih =>
    obtain ⟨hits, hscans⟩ := ih
    exact ⟨offset :: hits, .hit hsearch hscans⟩

namespace Scans

theorem length_eq (h : Scans ring needle start hits) :
    hits.length = ring.countFrom needle start := by
  induction h with
  | stop hsearch =>
    rw [countFrom]
    split
    · rfl
    · next hsome => simp [hsearch] at hsome
  | hit hsearch hrest ih =>
    rw [countFrom]
    split
    · next hnone => simp [hsearch] at hnone
    · next hsome =>
      obtain rfl := Option.some.inj (hsearch.symm.trans hsome)
      rw [List.length_cons, ih]

theorem start_le (h : Scans ring needle start hits) {place : Nat} (hplace : place ∈ hits) :
    start ≤ place := by
  induction h with
  | stop hsearch => cases hplace
  | hit hsearch hrest ih =>
    obtain ⟨-, hstart, -⟩ := search_spec hsearch
    rcases List.mem_cons.1 hplace with rfl | hlater
    · exact hstart
    · have := ih hlater
      omega

theorem pairwise (h : Scans ring needle start hits) :
    hits.Pairwise fun i j => i + needle.length ≤ j := by
  induction h with
  | stop hsearch => exact List.Pairwise.nil
  | hit hsearch hrest ih => exact List.pairwise_cons.2 ⟨fun _ hlater => hrest.start_le hlater, ih⟩

theorem occursAt (h : Scans ring needle start hits) (hvalid : ring.Valid) {place : Nat}
    (hplace : place ∈ hits) : Bytes.OccursAt ring.toList needle place := by
  induction h with
  | stop hsearch => cases hplace
  | hit hsearch hrest ih =>
    rcases List.mem_cons.1 hplace with rfl | hlater
    · exact (hvalid.search_eq_some_iff.1 hsearch).2.2.1
    · exact ih hlater

/-- Where the needle stands, a match begins that has not ended before. -/
theorem covers (h : Scans ring needle start hits) (hvalid : ring.Valid) (hne : needle ≠ [])
    {place : Nat} (hstart : start ≤ place) (hoccurs : Bytes.OccursAt ring.toList needle place) :
    ∃ hit ∈ hits, hit ≤ place ∧ place < hit + needle.length := by
  induction h with
  | stop hsearch => exact absurd hoccurs ((hvalid.search_eq_none_iff hne).1 hsearch place hstart)
  | @hit start offset hits hsearch hrest ih =>
    obtain ⟨-, -, -, hleftmost⟩ := hvalid.search_eq_some_iff.1 hsearch
    have hle : offset ≤ place := by
      -- the search would have met an earlier place first
      by_contra hlt
      exact hleftmost place hstart (Nat.not_le.1 hlt) hoccurs
    rcases Nat.lt_or_ge place (offset + needle.length) with hinside | hbehind
    · exact ⟨offset, List.mem_cons_self, hle, hinside⟩
    · obtain ⟨hit, hmem, hcovers⟩ := ih hbehind
      exact ⟨hit, List.mem_cons_of_mem offset hmem, hcovers⟩

theorem nodup (h : Scans ring needle start hits) (hne : needle ≠ []) : hits.Nodup := by
  have hpos := List.length_pos_iff.2 hne
  refine h.pairwise.imp ?_
  intro i j hij
  omega

theorem packing (h : Scans ring needle start hits) (hvalid : ring.Valid) :
    Bytes.Packing ring.toList needle hits.toFinset where
  occurs place hplace := h.occursAt hvalid (List.mem_toFinset.1 hplace)
  apart := by
    have hapart : hits.Pairwise (Bytes.Apart needle.length) := h.pairwise.imp Or.inl
    rw [List.coe_toFinset]
    exact hapart.set_pairwise

/-- Places that do not overlap begin inside different matches. -/
theorem card_le (h : Scans ring needle 0 hits) (hvalid : ring.Valid) (hne : needle ≠ [])
    {places : Finset Nat} (hplaces : Bytes.Packing ring.toList needle places) :
    places.card ≤ hits.length := by
  have hcovered : ∀ place ∈ places, ∃ hit, hit ∈ hits.toFinset ∧
      (hit ≤ place ∧ place < hit + needle.length) := by
    intro place hplace
    obtain ⟨hit, hmem, hcovers⟩ :=
      h.covers hvalid hne (Nat.zero_le place) (hplaces.occurs place hplace)
    exact ⟨hit, List.mem_toFinset.2 hmem, hcovers⟩
  refine (Finset.card_le_card_of_forall_subsingleton _ hcovered ?_).trans
    (List.toFinset_card_le hits)
  rintro hit - i ⟨hi, hle, hlt⟩ j ⟨hj, hle', hlt'⟩
  -- places inside one match are closer than the needle is long
  by_contra hij
  rcases hplaces.apart hi hj hij with happart | happart
  · omega
  · omega

theorem isGreatest (h : Scans ring needle 0 hits) (hvalid : ring.Valid) (hne : needle ≠ []) :
    IsGreatest (Bytes.packingSizes ring.toList needle) hits.length := by
  constructor
  · exact ⟨hits.toFinset, h.packing hvalid, List.toFinset_card_of_nodup (h.nodup hne)⟩
  · rintro size ⟨places, hplaces, rfl⟩
    exact h.card_le hvalid hne hplaces

end Scans

theorem occurrences_eq_none_iff : ring.occurrences needle = none ↔ needle = [] := by
  unfold occurrences
  split
  · next hnil => exact iff_of_true rfl (List.isEmpty_iff.1 hnil)
  · next hne => exact iff_of_false (Option.some_ne_none _) (by rwa [List.isEmpty_iff] at hne)

theorem occurrences_of_ne_nil (hne : needle ≠ []) :
    ring.occurrences needle = some (ring.countFrom needle 0) := by
  rw [occurrences, if_neg (by rwa [List.isEmpty_iff])]

theorem count_eq (ring : ByteRing) (byte : UInt8) :
    ring.count byte = ring.countFrom [byte] 0 := by
  rw [count, occurrences_of_ne_nil (List.cons_ne_nil byte []), Option.getD_some]

/-- Searching on behind every match comes to an end and meets as many matches as there can be
without any two overlapping. A single byte is met wherever it stands. -/
theorem occurrences_greatest (h : ring.Reachable) :
    (∀ needle, ring.occurrences needle = none ↔ needle = []) ∧
      (∀ needle, needle ≠ [] → ∃ hits, Scans ring needle 0 hits ∧
        ring.occurrences needle = some hits.length ∧
        IsGreatest (Bytes.packingSizes ring.toList needle) hits.length) ∧
      ∀ byte, ring.count byte =
        ((Finset.range ring.toList.length).filter fun index =>
          ring.toList[index]? = some byte).card := by
  refine ⟨fun _ => occurrences_eq_none_iff, ?_, ?_⟩
  · intro needle hne
    obtain ⟨hits, hscans⟩ := exists_scans ring needle 0
    refine ⟨hits, hscans, ?_, hscans.isGreatest h.valid hne⟩
    rw [occurrences_of_ne_nil hne, hscans.length_eq]
  · intro byte
    obtain ⟨hits, hscans⟩ := exists_scans ring [byte] 0
    have hgreatest := hscans.isGreatest h.valid (List.cons_ne_nil byte [])
    rw [count_eq, ← hscans.length_eq]
    exact hgreatest.unique (Bytes.isGreatest_packingSizes_singleton ring.toList byte)

/-- The needle overlaps itself, and its second match goes round the end of the storage. -/
theorem occurrences_greatest_wrapped :
    Reachable ⟨#[97, 98, 97, 97, 97], 2, 1, 4⟩ ∧ ([97, 97] : List UInt8) ≠ [] ∧
      occurrences ⟨#[97, 98, 97, 97, 97], 2, 1, 4⟩ [97, 97] = some 2 ∧
      occurrences ⟨#[97, 98, 97, 97, 97], 2, 1, 4⟩ [] = none ∧
      IsGreatest (Bytes.packingSizes [97, 97, 97, 97] [97, 97]) 2 ∧
      count ⟨#[97, 98, 97, 97, 97], 2, 1, 4⟩ 97 = 4 := by
  have hmake : (Recipe.ofBytes [98, 98, 97, 97]).make .ordinary = .ok (ofBytes [98, 98, 97, 97]) :=
    rfl
  have hreach : Reachable ⟨#[97, 98, 97, 97, 97], 2, 1, 4⟩ :=
    ((Reachable.made hmake).answered .ordinary (.update (.take 2))).answered .ordinary
      (.update (.pushSlice [97, 97]))
  obtain ⟨hnone, hsome, hcount⟩ := occurrences_greatest hreach
  have hne : ([97, 97] : List UInt8) ≠ [] := List.cons_ne_nil _ _
  obtain ⟨hits, hscans, hoccurs, hgreatest⟩ := hsome [97, 97] hne
  have hrun : Scans ⟨#[97, 98, 97, 97, 97], 2, 1, 4⟩ [97, 97] 0 [0, 2] :=
    .hit rfl (.hit rfl (.stop rfl))
  have hlen : hits.length = 2 := hscans.length_eq.trans hrun.length_eq.symm
  rw [hlen] at hoccurs hgreatest
  exact ⟨hreach, hne, hoccurs, (hnone []).2 rfl, hgreatest, hcount 97⟩

end ByteRing

end CyclicQueue
