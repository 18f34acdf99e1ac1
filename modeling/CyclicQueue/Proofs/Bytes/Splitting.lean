import CyclicQueue.Bytes.Occurrence

/-!
# Cutting a list that grows

The first mark of a list is still the first one when bytes are added behind, so cutting what has
arrived and going on with the rest cuts the whole.
-/

namespace CyclicQueue.Bytes

variable {mark bytes front back : List UInt8}

/-! ## The first mark -/

theorem breakAt?_of_occursAt (hne : mark ≠ []) {offset : Nat} (hoccurs : OccursAt bytes mark offset)
    (hbefore : ∀ earlier < offset, ¬ OccursAt bytes mark earlier) :
    breakAt? mark bytes = some (bytes.take offset, bytes.drop (offset + mark.length)) := by
  induction bytes generalizing offset with
  | nil =>
    rw [OccursAt, List.drop_nil, List.prefix_nil] at hoccurs
    exact absurd hoccurs hne
  | cons byte bytes ih =>
    cases offset with
    | zero =>
      have hhere : mark <+: byte :: bytes := hoccurs
      rw [breakAt?, if_pos hhere, List.take_zero, Nat.zero_add]
    | succ offset =>
      have hhere : ¬ mark <+: byte :: bytes := hbefore 0 (Nat.succ_pos _)
      rw [breakAt?, if_neg hhere, ih hoccurs fun earlier hlt => hbefore (earlier + 1) (by omega),
        Nat.add_right_comm]
      rfl

theorem breakAt?_eq_none (hnever : ∀ offset, ¬ OccursAt bytes mark offset) :
    breakAt? mark bytes = none := by
  induction bytes with
  | nil =>
    have hne : mark ≠ [] := fun heq => hnever 0 (heq ▸ List.nil_prefix)
    rw [breakAt?, if_neg hne]
  | cons byte bytes ih =>
    have hhere : ¬ mark <+: byte :: bytes := hnever 0
    rw [breakAt?, if_neg hhere, ih fun offset => hnever (offset + 1)]
    rfl

/-- The first mark of a list is the first mark of every longer one. -/
theorem breakAt?_append (hne : mark ≠ []) (h : breakAt? mark bytes = some (front, back))
    (more : List UInt8) : breakAt? mark (bytes ++ more) = some (front, back ++ more) := by
  induction bytes generalizing front with
  | nil =>
    rw [breakAt?, if_neg hne] at h
    cases h
  | cons byte bytes ih =>
    rw [List.cons_append]
    unfold breakAt? at h ⊢
    split at h
    · next hhere =>
      cases h
      have hlong : mark <+: byte :: (bytes ++ more) :=
        hhere.trans (List.prefix_append (byte :: bytes) more)
      rw [if_pos hlong, ← List.cons_append, List.drop_append_of_le_length hhere.length_le]
    · next hhere =>
      obtain ⟨⟨first, last⟩, hparts, heq⟩ := Option.map_eq_some_iff.1 h
      cases heq
      have hlen : mark.length ≤ bytes.length := by
        rw [eq_of_breakAt? hparts, List.length_append, List.length_append]
        omega
      have hlater : ¬ mark <+: byte :: (bytes ++ more) := by
        -- a mark that starts here would end before the added bytes
        intro hlong
        apply hhere
        exact List.prefix_of_prefix_length_le hlong (List.prefix_append (byte :: bytes) more)
          (by rw [List.length_cons]; omega)
      rw [if_neg hlater, ih hparts]
      rfl

theorem not_infix_of_breakAt?_none (hne : mark ≠ []) (h : breakAt? mark bytes = none) :
    ¬ mark <:+: bytes := by
  induction bytes with
  | nil => exact fun hin => hne (List.infix_nil.1 hin)
  | cons byte bytes ih =>
    unfold breakAt? at h
    split at h
    · cases h
    · next hhere =>
      intro hin
      rcases List.infix_cons_iff.1 hin with hstart | hrest
      · exact hhere hstart
      · exact ih (Option.map_eq_none_iff.1 h) hrest

theorem not_infix_of_breakAt?_some (hne : mark ≠ []) (h : breakAt? mark bytes = some (front, back)) :
    ¬ mark <:+: front := by
  induction bytes generalizing front with
  | nil =>
    rw [breakAt?, if_neg hne] at h
    cases h
  | cons byte bytes ih =>
    unfold breakAt? at h
    split at h
    · cases h
      exact fun hin => hne (List.infix_nil.1 hin)
    · next hhere =>
      obtain ⟨⟨first, last⟩, hparts, heq⟩ := Option.map_eq_some_iff.1 h
      cases heq
      intro hin
      rcases List.infix_cons_iff.1 hin with hstart | hrest
      · apply hhere
        rw [eq_of_breakAt? hparts, List.append_assoc, ← List.cons_append]
        exact hstart.trans (List.prefix_append _ _)
      · exact ih hparts hrest

/-! ## All marks -/

theorem split_of_none (h : breakAt? mark bytes = none) : split mark bytes = ([], bytes) := by
  rw [split]
  split
  · rfl
  · split
    · rfl
    · next hparts =>
      rw [h] at hparts
      cases hparts

theorem split_of_some (hne : mark ≠ []) (h : breakAt? mark bytes = some (front, back)) :
    split mark bytes = (front :: (split mark back).1, (split mark back).2) := by
  rw [split, dif_neg hne]
  split
  · next hparts =>
    rw [h] at hparts
    cases hparts
  · next hparts =>
    rw [h] at hparts
    cases hparts
    rfl

/-- What is left after cutting holds no mark. -/
theorem breakAt?_split (hne : mark ≠ []) (bytes : List UInt8) :
    breakAt? mark (split mark bytes).2 = none := by
  fun_induction split mark bytes with
  | case1 bytes hmark => exact absurd hmark hne
  | case2 bytes hmark hparts => exact hparts
  | case3 bytes hmark front back hparts parts ih => exact ih

/-- Cutting a first stretch, and what is left of it together with the rest, is cutting the whole. -/
theorem split_append (hne : mark ≠ []) (bytes more : List UInt8) :
    split mark (bytes ++ more) =
      ((split mark bytes).1 ++ (split mark ((split mark bytes).2 ++ more)).1,
        (split mark ((split mark bytes).2 ++ more)).2) := by
  fun_induction split mark bytes with
  | case1 bytes hmark => exact absurd hmark hne
  | case2 bytes hmark hparts => rfl
  | case3 bytes hmark front back hparts parts ih =>
    rw [split_of_some hne (breakAt?_append hne hparts more), ih]
    rfl

theorem not_infix_of_mem_split (hne : mark ≠ []) {bytes part : List UInt8}
    (h : part ∈ (split mark bytes).1) : ¬ mark <:+: part := by
  fun_induction split mark bytes with
  | case1 bytes hmark => exact absurd hmark hne
  | case2 bytes hmark hparts => cases h
  | case3 bytes hmark front back hparts parts ih =>
    rcases List.mem_cons.1 h with rfl | hrest
    · exact not_infix_of_breakAt?_some hne hparts
    · exact ih hrest

end CyclicQueue.Bytes
