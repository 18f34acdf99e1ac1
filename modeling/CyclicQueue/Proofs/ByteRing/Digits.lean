import CyclicQueue.Proofs.ByteRing.Copying
import CyclicQueue.Proofs.ByteRing.Guarded.Look

/-!
# The contents in hexadecimal digits

The digits of a ring are read back as its contents and no other text is, so they tell rings apart as
equality does. Each byte takes two digits wherever it lies, so the digits of a range are cut out of
the digits of the ring.
-/

namespace CyclicQueue.ByteRing

open Text.Hex (encode decode? pair)

variable {ring : ByteRing} {bytes : List UInt8} {offset length further : Nat}

/-! ## Digits pushed behind a text -/

theorem getElem?_digits_pair (byte : UInt8) :
    Guarded.digits[(byte >>> 4).toNat]? = some (pair byte).1 ∧
      Guarded.digits[(byte &&& 0x0F).toNat]? = some (pair byte).2 := by
  have hbyte := byte.toNat_lt
  have hhigh : (byte >>> 4).toNat = byte.toNat / 16 := by
    rw [UInt8.toNat_shiftRight]
    exact Nat.shiftRight_eq_div_pow byte.toNat 4
  have hlow : (byte &&& 0x0F).toNat = byte.toNat % 16 := by
    rw [UInt8.toNat_and]
    exact Nat.and_two_pow_sub_one_eq_mod byte.toNat 4
  rw [hhigh, hlow]
  exact ⟨Guarded.getElem?_digits (by omega), Guarded.getElem?_digits (by omega)⟩

theorem mem_digits_of_mem_encode {c : Char} (h : c ∈ encode bytes) : c ∈ Guarded.digits := by
  obtain ⟨byte, -, hc⟩ := List.mem_flatMap.1 h
  obtain ⟨hhigh, hlow⟩ := getElem?_digits_pair byte
  simp only [List.mem_cons, List.not_mem_nil, or_false] at hc
  rcases hc with rfl | rfl
  · exact List.mem_of_getElem? hhigh
  · exact List.mem_of_getElem? hlow

/-- What is written behind `text` when all bytes are pushed one after the other. -/
structure PushesDigits (text : String) (bytes : List UInt8) : Prop where
  pushed : bytes.foldl Text.Hex.push text = text ++ String.ofList (encode bytes)
  length_eq : (encode bytes).length = 2 * bytes.length
  decode?_iff : ∀ digits, decode? digits = some bytes ↔ digits = encode bytes
  /-- Each digit is found at its place in the table. -/
  looked : Guarded.appendHex text bytes = .ok (bytes.foldl Text.Hex.push text)

theorem pushesDigits (text : String) (bytes : List UInt8) : PushesDigits text bytes where
  pushed := Text.Hex.append_eq text bytes
  length_eq := Text.Hex.length_encode bytes
  decode?_iff _ := Text.Hex.decode?_eq_some_iff
  looked := Guarded.appendHex_eq text bytes

/-! ## All contents -/

theorem hex_eq_ofList (ring : ByteRing) : ring.hex = String.ofList (encode ring.toList) := by
  rw [hex_eq, Text.Hex.append_empty]

theorem toList_hex (ring : ByteRing) : ring.hex.toList = encode ring.toList := by
  rw [hex_eq_ofList, String.toList_ofList]

theorem hex_inj {a b : ByteRing} : a.hex = b.hex ↔ a.toList = b.toList := by
  rw [← String.toList_inj, toList_hex, toList_hex]
  exact Text.Hex.encode_injective.eq_iff

/-- What the digits of a ring are. No other text is read as its contents. -/
structure ShowsDigits (ring : ByteRing) : Prop where
  length_hex : ring.hex.length = 2 * ring.toList.length
  mem_digits : ∀ c ∈ ring.hex.toList, c ∈ Guarded.digits
  decode?_iff : ∀ text : String, decode? text.toList = some ring.toList ↔ text = ring.hex

theorem showsDigits (ring : ByteRing) : ring.ShowsDigits where
  length_hex := by rw [← String.length_toList, toList_hex, Text.Hex.length_encode]
  mem_digits c hc := by
    rw [toList_hex] at hc
    exact mem_digits_of_mem_encode hc
  decode?_iff text := by
    rw [Text.Hex.decode?_eq_some_iff, ← toList_hex, String.toList_inj]

/-! ## Ranges of the contents -/

theorem Valid.hexRange_of_inRange (h : ring.Valid)
    (hrange : InRange ring.toList.length offset length) :
    ring.hexRange offset length = .ok (String.ofList (encode (ring.window offset length))) := by
  rw [h.hexRange_eq, checkRange_ok_iff_inRange.2 hrange]
  exact congrArg Except.ok (Text.Hex.append_empty _)

theorem encode_window (ring : ByteRing) (offset length : Nat) :
    encode (ring.window offset length) =
      ring.hex.toList.extract (2 * offset) (2 * (offset + length)) := by
  have hcount : 2 * (offset + length) - 2 * offset = 2 * length := by omega
  rw [List.extract_eq_take_drop, hcount, toList_hex, ← Text.Hex.encode_drop,
    ← Text.Hex.encode_take]
  rfl

theorem window_append_window (ring : ByteRing) (offset length further : Nat) :
    ring.window offset length ++ ring.window (offset + length) further =
      ring.window offset (length + further) := by
  rw [window, window, window, List.take_add, List.drop_drop]

theorem InRange.join (h : InRange ring.toList.length offset length)
    (h' : InRange ring.toList.length (offset + length) further) :
    InRange ring.toList.length offset (length + further) :=
  ⟨h.1, Nat.add_assoc .. ▸ h'.2⟩

theorem Valid.hex_copyRange (h : ring.Valid) (hrange : InRange ring.toList.length offset length)
    (memory : Memory) :
    (ring.copyRange memory offset length).map hex =
      (memory.reserve (max length 1 + 1)).map fun _ =>
        String.ofList (encode (ring.window offset length)) := by
  have hcopied : (fresh ⟨max length 1, ring.window offset length⟩).hex =
      String.ofList (encode (ring.window offset length)) := by
    rw [hex_eq_ofList, toList_fresh (fits_window hrange)]
  rw [h.copyRange_of_inRange hrange]
  cases memory.reserve (max length 1 + 1) with
  | error fault => rfl
  | ok _ => exact congrArg Except.ok hcopied

/-- The digits of a range, by all ways to come by them. -/
structure RangeDigits (ring : ByteRing) (offset length : Nat) (text : String) : Prop where
  hexRange_eq : ring.hexRange offset length = .ok text
  sliced : text.toList = ring.hex.toList.extract (2 * offset) (2 * (offset + length))
  decode?_eq : decode? text.toList = some (ring.window offset length)
  copied : ∀ memory, (ring.copyRange memory offset length).map hex =
    (memory.reserve (max length 1 + 1)).map fun _ => text
  joined : ∀ further, InRange ring.toList.length (offset + length) further →
    ∃ next, ring.hexRange (offset + length) further = .ok next ∧
      ring.hexRange offset (length + further) = .ok (text ++ next)
  inWords : ring.storage.size ≤ Machine.blockLimit →
    Guarded.hexRange ring offset length = .ok (.ok text)

theorem Valid.rangeDigits (h : ring.Valid) (hrange : InRange ring.toList.length offset length) :
    RangeDigits ring offset length (String.ofList (encode (ring.window offset length))) where
  hexRange_eq := h.hexRange_of_inRange hrange
  sliced := by rw [String.toList_ofList, encode_window]
  decode?_eq := by rw [String.toList_ofList, Text.Hex.decode?_encode]
  copied := h.hex_copyRange hrange
  joined further hfurther := by
    refine ⟨_, h.hexRange_of_inRange hfurther, ?_⟩
    rw [h.hexRange_of_inRange (InRange.join hrange hfurther), ← String.ofList_append,
      ← Text.Hex.encode_append, window_append_window]
  inWords hsize := by rw [Guarded.hexRange_eq ⟨h, hsize⟩, h.hexRange_of_inRange hrange]

/-- The digits of a ring are read back as its contents, two rings have the same digits exactly when
they are equal, and the digits of every range are a stretch of them. -/
theorem hex_reads_back_and_slices :
    (∀ ring : ByteRing, ring.Reachable → ring.ShowsDigits ∧
      ∀ offset length, InRange ring.toList.length offset length →
        ∃ text, RangeDigits ring offset length text) ∧
      (∀ a b : ByteRing, a.Reachable → b.Reachable → (a.hex = b.hex ↔ (a == b) = true)) ∧
      (∀ byte : UInt8, Guarded.digits[(byte >>> 4).toNat]? = some (pair byte).1 ∧
        Guarded.digits[(byte &&& 0x0F).toNat]? = some (pair byte).2) ∧
      ∀ text bytes, PushesDigits text bytes := by
  refine ⟨?_, ?_, getElem?_digits_pair, pushesDigits⟩
  · intro ring h
    exact ⟨showsDigits ring, fun offset length hrange => ⟨_, h.valid.rangeDigits hrange⟩⟩
  · intro a b ha hb
    rw [hex_inj, ha.valid.beq_iff hb.valid]

/-- A range across the end of the storage is cut out behind the digits of the first byte, whose zero
stands. A ring laid out otherwise has the same digits. -/
theorem hex_reads_back_and_slices_wrapped :
    bent.hex = "0A141E" ∧ bent.hexRange 1 2 = .ok "141E" ∧
      (bent.copyRange .ordinary 1 2).map hex = .ok "141E" ∧
      (∃ next, bent.hexRange 2 1 = .ok next ∧ "141E" = "14" ++ next) ∧
      bent.hex = bent.realign.hex ∧
      Guarded.hexRange bent 1 2 = .ok (.ok "141E") ∧
      [0x20, 0x7E].foldl Text.Hex.push "x" = "x207E" := by
  obtain ⟨hrings, hpairs, -, hpushes⟩ := hex_reads_back_and_slices
  obtain ⟨hshows, hranges⟩ := hrings bent reachable_bent
  have hhex : "0A141E" = bent.hex := (hshows.decode?_iff "0A141E").1 rfl
  have hslice : bent.hex.toList = ['0', 'A', '1', '4', '1', 'E'] := by rw [← hhex]; rfl
  obtain ⟨both, hboth⟩ := hranges 1 2 ⟨.inr (by decide), by decide⟩
  obtain rfl : both = "141E" := String.toList_injective (by rw [hboth.sliced, hslice]; rfl)
  obtain ⟨first, hfirst⟩ := hranges 1 1 ⟨.inr (by decide), by decide⟩
  obtain rfl : first = "14" := String.toList_injective (by rw [hfirst.sliced, hslice]; rfl)
  obtain ⟨next, hnext, hjoined⟩ := hfirst.joined 1 ⟨.inr (by decide), by decide⟩
  have hderive : bent.derive .ordinary .realign = .ok bent.realign := rfl
  refine ⟨hhex.symm, hboth.hexRange_eq, hboth.copied .ordinary, ⟨next, hnext, ?_⟩, ?_, ?_, ?_⟩
  · exact Except.ok.inj (hboth.hexRange_eq.symm.trans hjoined)
  · exact (hpairs _ _ reachable_bent (reachable_bent.derived hderive)).2 rfl
  · exact hboth.inWords (by decide)
  · exact (hpushes "x" [0x20, 0x7E]).pushed.trans rfl

end CyclicQueue.ByteRing
