import CyclicQueue.Machine
import CyclicQueue.Proofs.ByteRing.Reachable
import CyclicQueue.Proofs.Json.Reading

/-!
# Rings that are written and read again

In any faithful format a ring is written as its capacity and its contents, so reading it again gives
the ring that realigning gives: the same capacity and contents, laid out from slot 0 of a storage of
zeros. Whatever text a ring is read from, it is such a ring, and it is read again as it is. JSON is
such a format.
-/

namespace CyclicQueue.ByteRing

variable {memory : Memory} {ring : ByteRing}

/-! ## What is written -/

/-- The text of the items after the first one. -/
def laterItemsText (bytes : List UInt8) : List Char :=
  bytes.flatMap fun byte => ',' :: Nat.toDigits 10 byte.toNat

theorem itemsText_cons (byte : UInt8) (bytes : List UInt8) :
    itemsText (byte :: bytes) = Nat.toDigits 10 byte.toNat ++ laterItemsText bytes := by
  induction bytes generalizing byte with
  | nil => rw [itemsText, laterItemsText, List.flatMap_nil, List.append_nil]
  | cons next bytes ih =>
    rw [itemsText, ih, laterItemsText, laterItemsText, List.flatMap_cons]
    · rfl
    · simp

theorem endsNumeral_laterItems (bytes : List UInt8) (rest : List Char) :
    Json.EndsNumeral (laterItemsText bytes ++ ']' :: rest) := by
  cases bytes with
  | nil => exact ⟨rfl, by decide, by decide, by decide⟩
  | cons byte bytes => exact ⟨rfl, by decide, by decide, by decide⟩

theorem readItems_laterItems (bytes : List UInt8) (rest : List Char) :
    Json.readItems Json.byte (laterItemsText bytes ++ ']' :: rest) = .ok (bytes, rest) := by
  induction bytes with
  | nil => exact Json.readItems_close
  | cons byte bytes ih =>
    have hbyte := Json.byte_run_toDigits byte (endsNumeral_laterItems bytes rest)
    rw [laterItemsText, List.flatMap_cons, List.append_assoc]
    exact Json.readItems_comma hbyte ih

theorem readList_items (bytes : List UInt8) (rest : List Char) :
    Json.readList Json.byte ('[' :: (itemsText bytes ++ ']' :: rest)) = .ok (bytes, rest) := by
  cases bytes with
  | nil => exact Json.readList_nil
  | cons byte bytes =>
    have hbyte := Json.byte_run_toDigits byte (endsNumeral_laterItems bytes rest)
    obtain ⟨c, digits, hdigits, hc⟩ := Json.exists_toDigits_eq_cons byte.toNat
    rw [itemsText_cons, List.append_assoc, hdigits]
    rw [hdigits] at hbyte
    refine Json.readList_cons (Json.isBlank_of_isDigit hc) ?_ hbyte (readItems_laterItems bytes rest)
    rintro rfl
    cases hc

theorem jsonText_eq (capacity : Nat) (data : List UInt8) :
    jsonText capacity data =
      '{' :: '"' :: ("capacity".toList ++ '"' :: ':' :: (Nat.toDigits 10 capacity ++
        ',' :: '"' :: ("data".toList ++ '"' :: ':' :: '[' :: (itemsText data ++ [']', '}'])))) := by
  -- the three fixed parts of the text, with the names of the fields set apart
  have hopen : "\x7b\"capacity\":".toList = '{' :: '"' :: ("capacity".toList ++ ['"', ':']) := rfl
  have hbetween : ",\"data\":[".toList = ',' :: '"' :: ("data".toList ++ ['"', ':', '[']) := rfl
  have hclose : "]\x7d".toList = [']', '}'] := rfl
  unfold jsonText
  rw [hopen, hbetween, hclose]
  simp only [List.append_assoc, List.cons_append, List.nil_append]

/-! ## What is read -/

theorem readMember_capacity {capacity : Nat} (h : capacity < Nat.pow 2 64) (draft : Draft)
    (hset : draft.capacity = none) (rest : List Char) (hrest : Json.EndsNumeral rest) :
    jsonRecord.readMember draft
        ("capacity".toList ++ '"' :: ':' :: (Nat.toDigits 10 capacity ++ rest)) =
      .ok ({ draft with capacity := some capacity }, rest) := by
  have hvalue := Json.Reader.run_map
    (fun capacity (draft : Draft) => { draft with capacity := some capacity })
    (Json.size_run_toDigits h hrest)
  have hplain : "capacity".toList.all Json.isPlain = true := rfl
  apply Json.Record.readMember_eq hplain rfl
  · exact Option.isSome_eq_false_iff.2 (hset ▸ rfl)
  · exact hvalue

theorem readMember_data (data : List UInt8) (draft : Draft) (hset : draft.data = none)
    (rest : List Char) :
    jsonRecord.readMember draft
        ("data".toList ++ '"' :: ':' :: '[' :: (itemsText data ++ ']' :: rest)) =
      .ok ({ draft with data := some data }, rest) := by
  have hlist : (Json.list Json.byte).run ('[' :: (itemsText data ++ ']' :: rest)) =
      .ok (data, rest) := readList_items data rest
  have hvalue := Json.Reader.run_map
    (fun data (draft : Draft) => { draft with data := some data }) hlist
  have hplain : "data".toList.all Json.isPlain = true := rfl
  apply Json.Record.readMember_eq hplain rfl
  · exact Option.isSome_eq_false_iff.2 (hset ▸ rfl)
  · exact hvalue

/-- The fields that are written are the fields that are read. -/
theorem read_jsonText {capacity : Nat} (h : capacity < Nat.pow 2 64) (data : List UInt8) :
    jsonRecord.read (jsonText capacity data) = .ok ((capacity, data), []) := by
  have hfirst := readMember_capacity h ⟨none, none⟩ rfl
    (',' :: '"' :: ("data".toList ++ '"' :: ':' :: '[' :: (itemsText data ++ [']', '}'])))
    ⟨rfl, by decide, by decide, by decide⟩
  have hsecond := readMember_data data ⟨some capacity, none⟩ rfl ['}']
  rw [jsonText_eq]
  calc jsonRecord.read _ = jsonRecord.readMembers ⟨none, none⟩ _ := rfl
    _ = jsonRecord.readMembers ⟨some capacity, none⟩ _ :=
      Json.Record.readMembers_of_next hfirst
    _ = jsonRecord.close ⟨some capacity, some data⟩ [] :=
      Json.Record.readMembers_of_last hsecond
    _ = .ok ((capacity, data), []) := rfl

/-- What is written as JSON is read again, and nothing is left of the text. -/
theorem faithful_jsonCodec : jsonCodec.Faithful := by
  intro capacity data hword
  refine ⟨[], ?_, rfl⟩
  rw [jsonCodec_write, jsonCodec_read, String.toList_ofList, read_jsonText hword]

/-- Which ring a capacity and bytes make, or the first reason against it. -/
theorem ofBytesWithCapacity_eq (memory : Memory) (data : List UInt8) (capacity : Nat) :
    ofBytesWithCapacity memory data capacity =
      if capacity < data.length then .error (.badArgument .capacityBelowLength)
      else if capacity = 0 then .error (.badArgument .capacityNotPositive)
      else (memory.reserve (capacity + 1)).map fun _ => fresh ⟨capacity, data⟩ := by
  have hrange : checkRange data.length 0 data.length = .ok () :=
    checkRange_eq_ok_iff.2 ⟨.inl rfl, by omega⟩
  rw [ofBytesWithCapacity, ofRangeWithCapacity_eq, planned, hrange]
  by_cases hbelow : capacity < data.length
  · simp only [if_pos hbelow]
    rfl
  · by_cases hzero : capacity = 0
    · simp only [if_neg hbelow, if_pos hzero]
      rfl
    · simp only [if_neg hbelow, if_neg hzero, List.drop_zero, List.take_length]
      cases memory.reserve (capacity + 1) <;> rfl

theorem lt_word_of_reserve (hmemory : memory.limit ≤ Machine.blockLimit) {capacity : Nat}
    (hgranted : memory.reserve (capacity + 1) = .ok ()) : capacity < Nat.pow 2 64 := by
  have hlimit := Memory.reserve_eq_ok_iff.1 hgranted
  calc
    capacity < memory.limit := hlimit
    _ ≤ Machine.blockLimit := hmemory
    _ ≤ Nat.pow 2 64 := by decide

namespace Codec

variable {Rest Failure : Type} {codec : Codec Rest Failure}

theorem Faithful.decode_write (h : codec.Faithful) (hmemory : memory.limit ≤ Machine.blockLimit)
    {queue : Fifo} (hfits : queue.Fits) (hgranted : memory.reserve (queue.capacity + 1) = .ok ()) :
    codec.decode memory (codec.write queue.capacity queue.held) = .ok (fresh queue) := by
  obtain ⟨rest, hread, hend⟩ := h queue.capacity queue.held (lt_word_of_reserve hmemory hgranted)
  have hmade : ofBytesWithCapacity memory queue.held queue.capacity = .ok (fresh queue) := by
    have hpos : queue.capacity ≠ 0 := Nat.one_le_iff_ne_zero.1 hfits.pos
    rw [ofBytesWithCapacity_eq, if_neg (Nat.not_lt.2 hfits.bounded), if_neg hpos, hgranted]
    rfl
  exact decode_eq_ok_iff.2 ⟨_, _, rest, hread, hmade, hend⟩

theorem Faithful.decode_encode (h : codec.Faithful) (hmemory : memory.limit ≤ Machine.blockLimit)
    (hvalid : ring.Valid) (hgranted : memory.reserve ring.storage.size = .ok ()) :
    codec.decode memory (codec.encode ring) = .ok ring.realign := by
  rw [hvalid.size_eq, ← Fifo.capacity_fifo ring] at hgranted
  rw [hvalid.realign_eq_fresh]
  exact h.decode_write hmemory (fits_fifo hvalid) hgranted

/-- A ring that is read is the fresh ring of what the text gives. -/
theorem fresh_of_decode {text : String} (h : codec.decode memory text = .ok ring) :
    ∃ (queue : Fifo) (rest : Rest), codec.read text = .ok ((queue.capacity, queue.held), rest) ∧
      codec.finish rest = .ok () ∧ queue.Fits ∧ memory.reserve (queue.capacity + 1) = .ok () ∧
      ring = fresh queue := by
  obtain ⟨capacity, data, rest, hread, hmade, hend⟩ := decode_eq_ok_iff.1 h
  obtain ⟨hfits, rfl⟩ := fresh_of_ofBytesWithCapacity hmade
  rw [ofBytesWithCapacity, ofRangeWithCapacity_eq] at hmade
  cases hplan : planned memory data 0 data.length capacity with
  | error fault =>
    rw [hplan] at hmade
    cases hmade
  | ok queue =>
    obtain ⟨-, -, -, hgranted, -⟩ := of_planned hplan
    exact ⟨_, rest, hread, hend, hfits, hgranted, rfl⟩

theorem reachable_of_decode {text : String} (h : codec.decode memory text = .ok ring) :
    ring.Reachable := by
  obtain ⟨capacity, data, -, -, hmade, -⟩ := decode_eq_ok_iff.1 h
  have hmake : (Recipe.ofBytesWithCapacity data capacity).make memory = .ok ring := by
    rw [Recipe.make, hmade]
    rfl
  exact .made hmake

/-- Values that no ring has are refused, whatever is left of the text. -/
theorem decode_of_misfit {text : String} {capacity : Nat} {data : List UInt8} {rest : Rest}
    (hread : codec.read text = .ok ((capacity, data), rest))
    (hmisfit : capacity = 0 ∨ capacity < data.length) :
    codec.decode memory text = .error (codec.refuse (.badArgument
      (if capacity < data.length then .capacityBelowLength else .capacityNotPositive))) := by
  simp only [decode, hread, ofBytesWithCapacity_eq]
  by_cases hbelow : capacity < data.length
  · simp only [if_pos hbelow]
  · simp only [if_neg hbelow, if_pos (hmisfit.resolve_right hbelow)]

end Codec

/-- In a faithful format a ring that has come about is read from its own text as it is realigned, if
its storage can be had once more. A ring that is read from any text lies from slot 0 on, holds what
the text gives and is read again as it is. Values that no ring can have are refused. -/
theorem decode_undoes_encode {Rest Failure : Type} {codec : Codec Rest Failure}
    (hfaithful : codec.Faithful) (hmemory : memory.limit ≤ Machine.blockLimit) :
    (∀ ring : ByteRing, ring.Reachable → memory.reserve ring.storage.size = .ok () →
      codec.decode memory (codec.encode ring) = .ok ring.realign ∧
        ring.realign.Packed ring.capacity ring.toList) ∧
    (∀ (text : String) (ring : ByteRing), codec.decode memory text = .ok ring →
      ∃ capacity data rest, codec.read text = .ok ((capacity, data), rest) ∧
        codec.finish rest = .ok () ∧ 1 ≤ capacity ∧ data.length ≤ capacity ∧
        ring.Reachable ∧ ring.Valid ∧ ring.Packed capacity data ∧
        codec.decode memory (codec.encode ring) = .ok ring) ∧
    ∀ (text : String) (capacity : Nat) (data : List UInt8) (rest : Rest),
      codec.read text = .ok ((capacity, data), rest) →
      capacity = 0 ∨ capacity < data.length →
      codec.decode memory text = .error (codec.refuse (.badArgument
        (if capacity < data.length then .capacityBelowLength else .capacityNotPositive))) := by
  refine ⟨?_, ?_, ?_⟩
  · intro ring hreach hgranted
    have hvalid := hreach.valid
    refine ⟨hfaithful.decode_encode hmemory hvalid hgranted, ?_⟩
    rw [hvalid.realign_eq_fresh]
    exact packed_fresh (fits_fifo hvalid)
  · rintro text ring hread
    have hreach := Codec.reachable_of_decode hread
    obtain ⟨queue, rest, hfields, hend, hfits, hgranted, rfl⟩ := Codec.fresh_of_decode hread
    have hpacked := packed_fresh hfits
    have hagain := hfaithful.decode_write hmemory hfits hgranted
    refine ⟨queue.capacity, queue.held, rest, hfields, hend, hfits.pos, hfits.bounded, hreach,
      valid_fresh hfits, hpacked, ?_⟩
    rwa [Codec.encode, hpacked.capacity_eq, hpacked.toList_eq]
  · rintro text capacity data rest hread hmisfit
    exact Codec.decode_of_misfit hread hmisfit

/-- A ring of two bytes whose contents go round the end of the storage, its JSON, the ring that is
read from it, and a text whose capacity is too small. -/
theorem decode_undoes_encode_wrapped :
    jsonCodec.Faithful ∧ Memory.ordinary.limit ≤ Machine.blockLimit ∧
      ∃ ring : ByteRing, ring.Reachable ∧ ring.slices = ⟨[8], [9]⟩ ∧
        ring.toJson = "\x7b\"capacity\":2,\"data\":[8,9]\x7d" ∧
        ofJson .ordinary ring.toJson = .ok ⟨#[8, 9, 0], 0, 2, 2⟩ ∧
        Packed 2 [8, 9] ⟨#[8, 9, 0], 0, 2, 2⟩ ∧
        ofJson .ordinary "\x7b\"capacity\":1,\"data\":[8,9]\x7d" =
          .error (.mismatch (.refused (.badArgument .capacityBelowLength))) := by
  have hmemory : Memory.ordinary.limit ≤ Machine.blockLimit := by decide
  obtain ⟨hwritten, hread, hmisfit⟩ := decode_undoes_encode faithful_jsonCodec hmemory
  have hmake : (Recipe.ofBytes [7, 8]).make .ordinary = .ok (ofBytes [7, 8]) := rfl
  have hreach := ((Reachable.made hmake).answered .ordinary (.update (.take 2))).answered .ordinary
    (.update (.pushSlice [8, 9]))
  obtain ⟨htext, hpacked⟩ := hwritten _ hreach (by decide)
  obtain ⟨capacity, data, rest, -, -, -, -, -, -, hpacked', -⟩ := hread _ _ htext
  refine ⟨faithful_jsonCodec, hmemory, _, hreach, rfl, rfl, htext, hpacked, ?_⟩
  have hfields : jsonCodec.read (jsonCodec.write 1 [8, 9]) = .ok ((1, [8, 9]), []) := by
    rw [jsonCodec_write, jsonCodec_read, String.toList_ofList, read_jsonText (by decide)]
  exact hmisfit _ 1 [8, 9] [] hfields (.inr (by decide))

end CyclicQueue.ByteRing
