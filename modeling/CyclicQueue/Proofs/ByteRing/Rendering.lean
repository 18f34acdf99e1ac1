import CyclicQueue.ByteRing.Text
import CyclicQueue.Proofs.ByteRing.Changes
import CyclicQueue.Proofs.ByteRing.Walking

/-!
# Texts of the contents

The texts of a ring are the texts of its contents: two pieces written one behind the other are
written as one list.
-/

namespace CyclicQueue.ByteRing

variable {ring : ByteRing}

theorem hex_append_append (text : String) (first second : List UInt8) :
    Text.Hex.append (Text.Hex.append text first) second =
      Text.Hex.append text (first ++ second) :=
  List.foldl_append.symm

theorem hexOf_eq (ring : ByteRing) (offset length : Nat) :
    ring.hexOf offset length = Text.Hex.append "" (ring.range offset length) :=
  hex_append_append ..

theorem hex_eq (ring : ByteRing) : ring.hex = Text.Hex.append "" ring.toList :=
  hexOf_eq ..

theorem Valid.hexRange_eq (h : ring.Valid) (offset length : Nat) :
    ring.hexRange offset length =
      (checkRange ring.toList.length offset length).map fun _ =>
        Text.Hex.append "" ((ring.toList.drop offset).take length) := by
  unfold hexRange
  rw [h.length_toList]
  cases hrange : checkRange ring.len offset length with
  | error fault => rfl
  | ok _ =>
    rw [hexOf_eq, h.range_eq (checkRange_eq_ok_iff.1 hrange).2]
    rfl

theorem display_eq (ring : ByteRing) : ring.display = Text.Latin1.decode ring.toList := by
  rw [display, Walk.collect_eq, toList_walk]

end CyclicQueue.ByteRing
