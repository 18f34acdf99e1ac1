/-!
# Text with one byte for each character

The characters up to U+00FF are the bytes; every other character is written as a question mark.
Decoding a byte gives the character with its number, so encoding it again gives the byte, and a text
that is encoded first comes back in legible characters.
-/

namespace CyclicQueue.Text.Latin1

def ofChar (c : Char) : UInt8 :=
  if c.toNat < 256 then UInt8.ofNat c.toNat else 63

def toChar (byte : UInt8) : Char :=
  Char.ofNat byte.toNat

/-- The character that is read where `c` was written. -/
def legible (c : Char) : Char :=
  if c.toNat < 256 then c else '?'

/-- One byte for each character. -/
def encode (text : String) : List UInt8 :=
  text.toList.map ofChar

/-- One character for each byte. -/
def decode (bytes : List UInt8) : String :=
  String.ofList (bytes.map toChar)

theorem toNat_toChar (byte : UInt8) : (toChar byte).toNat = byte.toNat := by
  have hb := byte.toNat_lt
  have hv : byte.toNat.isValidChar := Or.inl (by omega)
  rw [toChar, Char.ofNat, dif_pos hv]
  rfl

theorem ofChar_toChar (byte : UInt8) : ofChar (toChar byte) = byte := by
  have hb := byte.toNat_lt
  rw [ofChar, toNat_toChar, if_pos (by omega), UInt8.ofNat_toNat]

theorem toChar_ofChar (c : Char) : toChar (ofChar c) = legible c := by
  unfold ofChar legible
  split
  · next hbyte => rw [toChar, UInt8.toNat_ofNat_of_lt' hbyte, Char.ofNat_toNat]
  · rfl

theorem toNat_ofChar (c : Char) : (ofChar c).toNat = (legible c).toNat := by
  rw [← toChar_ofChar, toNat_toChar]

theorem legible_eq_self_iff {c : Char} : legible c = c ↔ c.toNat < 256 := by
  unfold legible
  split
  · next hbyte => exact iff_of_true rfl hbyte
  · next hlarge =>
    refine iff_of_false ?_ hlarge
    rintro rfl
    exact hlarge (by decide)

theorem map_legible_eq_self_iff {text : String} :
    text.map legible = text ↔ ∀ c ∈ text.toList, c.toNat < 256 := by
  rw [← String.toList_inj, String.toList_map]
  simpa [legible_eq_self_iff] using
    (List.map_inj_left : text.toList.map legible = text.toList.map id ↔ _)

theorem length_encode (text : String) : (encode text).length = text.length := by
  rw [encode, List.length_map, String.length_toList]

theorem length_decode (bytes : List UInt8) : (decode bytes).length = bytes.length := by
  rw [decode, String.length_ofList, List.length_map]

theorem decode_encode (text : String) : decode (encode text) = text.map legible := by
  apply String.toList_injective
  simp [decode, encode, toChar_ofChar]

theorem encode_decode (bytes : List UInt8) : encode (decode bytes) = bytes := by
  simp [encode, decode, List.map_map, Function.comp_def, ofChar_toChar]

end CyclicQueue.Text.Latin1
