import CyclicQueue.Proofs.ByteRing.Reachable
import Mathlib.Data.List.Basic
import Mathlib.Data.List.Forall2

/-!
# Equality and hashing see the contents

Rings are equal where their contents are, and so is what they feed to a hash state. The length that
is fed first tells how many bytes follow, so what one ring feeds is told apart from whatever is fed
behind it.
-/

namespace CyclicQueue.ByteRing

theorem Valid.beq_iff {a b : ByteRing} (ha : a.Valid) (hb : b.Valid) :
    (a == b) = true ↔ a.toList = b.toList :=
  ha.equal_iff hb

/-- Rings inherit an equivalence from the equality of their contents. -/
theorem beq_equivalence :
    Equivalence fun a b : {ring : ByteRing // ring.Reachable} => (a.1 == b.1) = true := by
  have hcontents (a b : {ring : ByteRing // ring.Reachable}) :
      (a.1 == b.1) = true ↔ a.1.toList = b.1.toList := a.2.valid.beq_iff b.2.valid
  simp only [hcontents]
  exact InvImage.equivalence _ (fun ring : {ring : ByteRing // ring.Reachable} => ring.1.toList)
    eq_equivalence

/-! ## Hashing -/

theorem byte_injective : Function.Injective HashFeed.byte :=
  fun _ _ h => HashFeed.byte.inj h

/-- Whatever is fed behind a ring, the ring's contents and what follows can be read off. -/
theorem Valid.hashFeeds_append_inj {a b : ByteRing} (ha : a.Valid) (hb : b.Valid)
    {rest rest' : List HashFeed} (h : a.hashFeeds ++ rest = b.hashFeeds ++ rest') :
    a.toList = b.toList ∧ rest = rest' := by
  rw [ha.hashFeeds_eq, hb.hashFeeds_eq, List.cons_append, List.cons_append] at h
  obtain ⟨hword, hfeeds⟩ := List.cons.inj h
  have hlen : a.toList.length = b.toList.length := HashFeed.word.inj hword
  obtain ⟨hbytes, hrest⟩ := List.append_inj hfeeds (by rw [List.length_map, List.length_map, hlen])
  exact ⟨List.map_injective_iff.2 byte_injective hbytes, hrest⟩

theorem Valid.hashFeeds_inj {a b : ByteRing} (ha : a.Valid) (hb : b.Valid) :
    a.hashFeeds = b.hashFeeds ↔ a.toList = b.toList := by
  constructor
  · intro h
    exact (ha.hashFeeds_append_inj hb (congrArg (· ++ []) h)).1
  · intro h
    rw [ha.hashFeeds_eq, hb.hashFeeds_eq, h]

/-- What one ring feeds is no beginning of what another one feeds. -/
theorem Valid.hashFeeds_eq_of_isPrefix {a b : ByteRing} (ha : a.Valid) (hb : b.Valid)
    (h : a.hashFeeds <+: b.hashFeeds) : a.hashFeeds = b.hashFeeds := by
  obtain ⟨rest, hrest⟩ := h
  have hfeeds : a.hashFeeds ++ rest = b.hashFeeds ++ [] := by rw [hrest, List.append_nil]
  exact (ha.hashFeeds_inj hb).2 (ha.hashFeeds_append_inj hb hfeeds).1

theorem hashFeeds_ne_nil (ring : ByteRing) : ring.hashFeeds ≠ [] :=
  List.cons_ne_nil _ _

/-- Rings that are fed one behind the other can be told apart one by one. -/
theorem flatMap_hashFeeds_iff {as bs : List ByteRing} (has : ∀ a ∈ as, a.Valid)
    (hbs : ∀ b ∈ bs, b.Valid) :
    as.flatMap hashFeeds = bs.flatMap hashFeeds ↔
      List.Forall₂ (fun a b => (a == b) = true) as bs := by
  induction as generalizing bs with
  | nil =>
    cases bs with
    | nil => exact iff_of_true rfl .nil
    | cons b bs =>
      refine iff_of_false ?_ (by rintro ⟨⟩)
      intro h
      exact b.hashFeeds_ne_nil (List.append_eq_nil_iff.1 h.symm).1
  | cons a as ih =>
    cases bs with
    | nil =>
      refine iff_of_false ?_ (by rintro ⟨⟩)
      intro h
      exact a.hashFeeds_ne_nil (List.append_eq_nil_iff.1 h).1
    | cons b bs =>
      obtain ⟨ha, has⟩ := List.forall_mem_cons.1 has
      obtain ⟨hb, hbs⟩ := List.forall_mem_cons.1 hbs
      rw [List.flatMap_cons, List.flatMap_cons, List.forall₂_cons, ha.beq_iff hb, ← ih has hbs]
      constructor
      · exact ha.hashFeeds_append_inj hb
      · rintro ⟨hcontents, hrest⟩
        rw [(ha.hashFeeds_inj hb).2 hcontents, hrest]

/-- Equality and hashing tell rings apart by their contents and by nothing else, one ring at a time
and several in a row. -/
theorem equality_and_hash_see_contents :
    (∀ a b : ByteRing, a.Reachable → b.Reachable →
      ((a == b) = true ↔ a.toList = b.toList) ∧
        ((a == b) = true ↔ a.hashFeeds = b.hashFeeds) ∧
        (a.hashFeeds <+: b.hashFeeds → a.hashFeeds = b.hashFeeds)) ∧
      (Equivalence fun a b : {ring : ByteRing // ring.Reachable} => (a.1 == b.1) = true) ∧
      (∀ ring : ByteRing, ring.Reachable →
        ring.hashFeeds = .word ring.len :: ring.toList.map .byte) ∧
      ∀ as bs : List ByteRing, (∀ a ∈ as, a.Reachable) → (∀ b ∈ bs, b.Reachable) →
        (as.flatMap hashFeeds = bs.flatMap hashFeeds ↔
          List.Forall₂ (fun a b => (a == b) = true) as bs) := by
  refine ⟨?_, ?_, ?_, ?_⟩
  · intro a b ha hb
    have hequal := ha.valid.beq_iff hb.valid
    exact ⟨hequal, hequal.trans (ha.valid.hashFeeds_inj hb.valid).symm,
      ha.valid.hashFeeds_eq_of_isPrefix hb.valid⟩
  · exact beq_equivalence
  · intro ring hring
    rw [hring.valid.hashFeeds_eq, hring.valid.length_toList]
  · intro as bs has hbs
    exact flatMap_hashFeeds_iff (fun a ha => (has a ha).valid) fun b hb => (hbs b hb).valid

/-- A ring that goes round the end of its storage and a longer one that never did hold the same two
bytes. A third one holds the first of them only. -/
theorem equality_and_hash_see_contents_wrapped :
    (Reachable ⟨#[9, 8, 8], 2, 1, 2⟩ ∧ Reachable ⟨#[8, 9, 0, 0], 0, 2, 2⟩ ∧
        Reachable ⟨#[8, 0], 0, 1, 1⟩) ∧
      ((⟨#[9, 8, 8], 2, 1, 2⟩ : ByteRing) == ⟨#[8, 9, 0, 0], 0, 2, 2⟩) = true ∧
      hashFeeds ⟨#[9, 8, 8], 2, 1, 2⟩ = [.word 2, .byte 8, .byte 9] ∧
      ¬ hashFeeds ⟨#[8, 0], 0, 1, 1⟩ <+: hashFeeds ⟨#[9, 8, 8], 2, 1, 2⟩ ∧
      [⟨#[9, 8, 8], 2, 1, 2⟩, ⟨#[8, 0], 0, 1, 1⟩].flatMap hashFeeds ≠
        [⟨#[8, 0], 0, 1, 1⟩, ⟨#[9, 8, 8], 2, 1, 2⟩].flatMap hashFeeds := by
  have hmake : (Recipe.ofBytes [7, 8]).make .ordinary = .ok (ofBytes [7, 8]) := rfl
  have hwrapped : Reachable ⟨#[9, 8, 8], 2, 1, 2⟩ :=
    ((Reachable.made hmake).answered .ordinary (.update (.take 2))).answered .ordinary
      (.update (.pushSlice [8, 9]))
  have hmakeLong : (Recipe.ofBytesWithCapacity [8, 9] 3).make .ordinary =
      .ok ⟨#[8, 9, 0, 0], 0, 2, 2⟩ := rfl
  have hlong : Reachable ⟨#[8, 9, 0, 0], 0, 2, 2⟩ := .made hmakeLong
  have hmakeShort : (Recipe.ofBytes [8]).make .ordinary = .ok ⟨#[8, 0], 0, 1, 1⟩ := rfl
  have hshort : Reachable ⟨#[8, 0], 0, 1, 1⟩ := .made hmakeShort
  obtain ⟨hpairs, -, hfeeds, hrows⟩ := equality_and_hash_see_contents
  have hfeedsWrapped := hfeeds _ hwrapped
  have hdiffer : (⟨#[8, 0], 0, 1, 1⟩ : ByteRing).hashFeeds ≠ hashFeeds ⟨#[9, 8, 8], 2, 1, 2⟩ := by
    rw [hfeeds _ hshort, hfeedsWrapped]
    decide
  obtain ⟨hequal, -, -⟩ := hpairs _ _ hwrapped hlong
  obtain ⟨-, -, hbegins⟩ := hpairs _ _ hshort hwrapped
  obtain ⟨-, hsame, -⟩ := hpairs _ _ hwrapped hshort
  refine ⟨⟨hwrapped, hlong, hshort⟩, hequal.2 rfl, hfeedsWrapped, fun h => hdiffer (hbegins h), ?_⟩
  intro hrow
  have hpairwise := (hrows _ _ (by simp [hwrapped, hshort]) (by simp [hwrapped, hshort])).1 hrow
  obtain ⟨hfirst, -⟩ := List.forall₂_cons.1 hpairwise
  exact hdiffer (hsame.1 hfirst).symm

end CyclicQueue.ByteRing
