import CyclicQueue.Proofs.ByteRing.Copying
import CyclicQueue.Proofs.ByteRing.Guarded.Look

/-!
# Texts of one character for each byte

A ring that is made of a text holds one byte for each character, however many bytes the character
takes elsewhere, and shows the text again with question marks for what is no byte. The other way
round nothing is lost: what a ring shows is made into the same bytes.
-/

namespace CyclicQueue.ByteRing

open Text.Latin1 (legible)

variable {ring : ByteRing}

/-! ## Texts made into rings -/

theorem toList_ofLatin1 (text : String) : (ofLatin1 text).toList = Text.Latin1.encode text :=
  (packed_ofBytes _).toList_eq

theorem display_ofLatin1 (text : String) : (ofLatin1 text).display = text.map legible := by
  rw [display_eq, toList_ofLatin1, Text.Latin1.decode_encode]

/-- What a ring that is made of a text holds and shows. -/
structure TakesUp (text : String) (ring : ByteRing) : Prop where
  len_eq : ring.len = text.length
  byte_of_char : List.Forall₂ (fun c byte => byte.toNat = (legible c).toNat) text.toList ring.toList
  capacity_eq : ring.capacity = max text.length 1
  display_eq : ring.display = text.map legible
  display_eq_self_iff : ring.display = text ↔ ∀ c ∈ text.toList, c.toNat < 256

theorem takesUp_ofLatin1 (text : String) : TakesUp text (ofLatin1 text) where
  len_eq := (packed_ofBytes _).len_eq.trans (Text.Latin1.length_encode text)
  byte_of_char := by
    rw [toList_ofLatin1, Text.Latin1.encode, List.forall₂_map_right_iff, List.forall₂_same]
    intro c _
    exact Text.Latin1.toNat_ofChar c
  capacity_eq := by
    rw [← Text.Latin1.length_encode]
    exact (packed_ofBytes _).capacity_eq
  display_eq := display_ofLatin1 text
  display_eq_self_iff := by
    rw [display_ofLatin1]
    exact Text.Latin1.map_legible_eq_self_iff

/-- When a ring of the given capacity is made of a text, and what it holds. -/
structure TakesUpWithin (memory : Memory) (text : String) (capacity : Nat) : Prop where
  isOk_iff : (ofLatin1WithCapacity memory text capacity).isOk = true ↔
    1 ≤ capacity ∧ text.length ≤ capacity ∧ memory.reserve (capacity + 1) = .ok ()
  packed : ∀ built, ofLatin1WithCapacity memory text capacity = .ok built →
    built.Packed capacity (ofLatin1 text).toList
  error_iff : ∀ fault, ofLatin1WithCapacity memory text capacity = .error fault ↔
    BuildFault memory text.length 0 text.length capacity fault
  /-- Nor is a storage size that is no word taken for a small one. -/
  inWords : memory.limit ≤ Machine.blockLimit → text.length ≤ Machine.blockLimit →
    Guarded.ofLatin1WithCapacity memory text capacity =
      .ok (ofLatin1WithCapacity memory text capacity)

theorem takesUpWithin (memory : Memory) (text : String) (capacity : Nat) :
    TakesUpWithin memory text capacity where
  isOk_iff := by
    rw [← Text.Latin1.length_encode, Memory.reserve_eq_ok_iff]
    apply isOk_ofRangeWithCapacity_iff.trans
    constructor
    · rintro ⟨-, hle, hpos, hgranted⟩
      exact ⟨hpos, hle, hgranted⟩
    · rintro ⟨hpos, hle, hgranted⟩
      exact ⟨⟨.inl rfl, by omega⟩, hle, hpos, hgranted⟩
  packed built hbuilt := by
    have hpacked := (((builds_ofRangeWithCapacity ..).ok_iff built).1 hbuilt).2
    rw [List.drop_zero, List.take_length] at hpacked
    rwa [toList_ofLatin1]
  error_iff fault := by
    rw [← Text.Latin1.length_encode]
    exact (builds_ofRangeWithCapacity ..).error_iff fault
  inWords hmemory htext :=
    Guarded.ofBytesWithCapacity_eq hmemory (by rwa [Text.Latin1.length_encode]) capacity

/-! ## Rings shown as texts -/

/-- What a ring shows is made into the same bytes again. -/
structure ShowsBytes (ring : ByteRing) : Prop where
  length_display : ring.display.length = ring.toList.length
  len_ofLatin1 : (ofLatin1 ring.display).len = ring.toList.length
  beq : (ofLatin1 ring.display == ring) = true
  inWords : ring.storage.size ≤ Machine.blockLimit → Guarded.display ring = .ok ring.display

theorem toList_ofLatin1_display (ring : ByteRing) :
    (ofLatin1 ring.display).toList = ring.toList := by
  rw [toList_ofLatin1, display_eq, Text.Latin1.encode_decode]

theorem Valid.showsBytes (h : ring.Valid) : ring.ShowsBytes where
  length_display := by rw [display_eq, Text.Latin1.length_decode]
  len_ofLatin1 := by
    rw [← toList_ofLatin1_display, toList_ofLatin1]
    exact (packed_ofBytes _).len_eq
  beq := ((valid_ofBytes _).beq_iff h).2 (toList_ofLatin1_display ring)
  inWords hsize := Guarded.display_eq ⟨h, hsize⟩

/-- A text and a ring are made into each other character by character: a text comes back legible,
and a ring comes back equal, wherever its contents lie. -/
theorem latin1_round_trip :
    (∀ text : String, TakesUp text (ofLatin1 text) ∧
      ∀ memory, (Recipe.ofLatin1 text).make memory = .ok (ofLatin1 text) ∧
        ∀ capacity, TakesUpWithin memory text capacity) ∧
      ∀ ring : ByteRing, ring.Reachable → ring.ShowsBytes := by
  refine ⟨?_, fun ring h => h.valid.showsBytes⟩
  intro text
  refine ⟨takesUp_ofLatin1 text, ?_⟩
  intro memory
  exact ⟨rfl, takesUpWithin memory text⟩

/-- A ring whose three bytes go round the end of the storage. The first two of them would be one
character if a character could take two bytes. -/
theorem latin1_round_trip_wrapped :
    Reachable ⟨#[63, 2, 195, 169], 2, 1, 3⟩ ∧
      (ofLatin1 (display ⟨#[63, 2, 195, 169], 2, 1, 3⟩) == ⟨#[63, 2, 195, 169], 2, 1, 3⟩) = true ∧
      (display ⟨#[63, 2, 195, 169], 2, 1, 3⟩).length = 3 ∧
      "é€".utf8ByteSize = 5 ∧ (ofLatin1 "é€").len = 2 ∧ (ofLatin1 "é€").capacity = 2 ∧
      (ofLatin1 "é€").display = "é?" ∧
      (ofLatin1WithCapacity .ordinary "é€" 1).isOk = false ∧
      (ofLatin1WithCapacity .ordinary "é€" 2).isOk = true := by
  have hmake : (Recipe.ofBytesWithCapacity [1, 2] 3).make .ordinary =
      .ok ⟨#[1, 2, 0, 0], 0, 2, 2⟩ := rfl
  have hwrapped : Reachable ⟨#[63, 2, 195, 169], 2, 1, 3⟩ :=
    ((Reachable.made hmake).answered .ordinary (.update (.take 2))).answered .ordinary
      (.update (.pushSlice [195, 169, 63]))
  obtain ⟨htexts, hrings⟩ := latin1_round_trip
  have hring := hrings _ hwrapped
  obtain ⟨htext, hmakes⟩ := htexts "é€"
  have hone := ((hmakes .ordinary).2 1).isOk_iff
  have htwo := ((hmakes .ordinary).2 2).isOk_iff
  refine ⟨hwrapped, hring.beq, hring.length_display, rfl, htext.len_eq, htext.capacity_eq, ?_, ?_,
    ?_⟩
  · apply String.toList_injective
    rw [htext.display_eq, String.toList_map]
    rfl
  · rw [Bool.eq_false_iff]
    intro hok
    exact absurd (hone.1 hok).2.1 (by decide)
  · exact htwo.2 ⟨by decide, by decide, by decide⟩

end CyclicQueue.ByteRing
