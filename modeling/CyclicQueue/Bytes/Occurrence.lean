/-!
# Where a needle stands in a list of bytes

`OccursAt` says that a needle stands at a position, and `split` cuts a list at every mark met from
the left. Putting the mark behind every part again gives the list back.
-/

namespace CyclicQueue.Bytes

/-- `needle` stands in `bytes` at `offset`. -/
def OccursAt (bytes needle : List UInt8) (offset : Nat) : Prop :=
  needle <+: bytes.drop offset

instance (bytes needle : List UInt8) (offset : Nat) : Decidable (OccursAt bytes needle offset) :=
  inferInstanceAs (Decidable (needle <+: bytes.drop offset))

theorem occursAt_iff {bytes needle : List UInt8} {offset : Nat} :
    OccursAt bytes needle offset ↔ (bytes.drop offset).take needle.length = needle :=
  List.prefix_iff_eq_take.trans eq_comm

theorem OccursAt.end_le {bytes needle : List UInt8} {offset : Nat}
    (h : OccursAt bytes needle offset) (hne : needle ≠ []) :
    offset + needle.length ≤ bytes.length := by
  have hlen := List.IsPrefix.length_le h
  have := List.length_pos_iff.2 hne
  rw [List.length_drop] at hlen
  omega

/-- The part of `bytes` before the first `mark`, and the part after it. -/
def breakAt? (mark : List UInt8) : List UInt8 → Option (List UInt8 × List UInt8)
  | [] => if mark = [] then some ([], []) else none
  | byte :: bytes =>
    if mark <+: byte :: bytes then some ([], (byte :: bytes).drop mark.length)
    else (breakAt? mark bytes).map fun parts => (byte :: parts.1, parts.2)

theorem eq_of_breakAt? {mark bytes front back : List UInt8}
    (h : breakAt? mark bytes = some (front, back)) : bytes = front ++ mark ++ back := by
  induction bytes generalizing front with
  | nil =>
    unfold breakAt? at h
    split at h
    · next hmark =>
      cases h
      simp [hmark]
    · cases h
  | cons byte bytes ih =>
    unfold breakAt? at h
    split at h
    · next hmark =>
      cases h
      obtain ⟨rest, hrest⟩ := hmark
      rw [← hrest, List.drop_left, List.nil_append]
    · obtain ⟨⟨first, last⟩, hparts, heq⟩ := Option.map_eq_some_iff.1 h
      cases heq
      rw [ih hparts]
      rfl

/-- Cuts `bytes` at every `mark` met from the left: the parts that a mark ends, and what is left.
There is nothing to cut at where the mark is empty. -/
def split (mark bytes : List UInt8) : List (List UInt8) × List UInt8 :=
  if _hmark : mark = [] then ([], bytes)
  else
    match _hparts : breakAt? mark bytes with
    | none => ([], bytes)
    | some (front, back) =>
      let parts := split mark back
      (front :: parts.1, parts.2)
termination_by bytes.length
decreasing_by
  have := List.length_pos_iff.2 _hmark
  rw [eq_of_breakAt? _hparts]
  simp only [List.length_append]
  omega

/-- The mark behind every part, and the rest behind all of them. -/
def join (mark : List UInt8) (parts : List (List UInt8)) (rest : List UInt8) : List UInt8 :=
  parts.flatMap (· ++ mark) ++ rest

/-- Nothing is lost by cutting. -/
theorem join_split (mark bytes : List UInt8) :
    join mark (split mark bytes).1 (split mark bytes).2 = bytes := by
  fun_induction split mark bytes with
  | case1 => rfl
  | case2 => rfl
  | case3 bytes hmark front back hparts parts ih =>
    rw [eq_of_breakAt? hparts, join, List.flatMap_cons, List.append_assoc, ← join, ih]

end CyclicQueue.Bytes
