/-!
# Positions on a cycle of slots

A cursor is a slot number below the number of slots. It moves forward and back around the cycle.
The two moves undo each other, and different distances below one full turn lead to different
slots.
-/

namespace CyclicQueue.Cursor

/-- The slot `steps` places after `pos` on a cycle of `size` slots. -/
def forward (size pos steps : Nat) : Nat :=
  (pos + steps) % size

/-- The slot `steps` places before `pos` on a cycle of `size` slots. A full turn is added first,
so the difference is never negative for a distance of at most one turn. -/
def back (size pos steps : Nat) : Nat :=
  (pos + size - steps) % size

theorem forward_lt {size : Nat} (h : 0 < size) (pos steps : Nat) :
    forward size pos steps < size :=
  Nat.mod_lt _ h

theorem back_lt {size : Nat} (h : 0 < size) (pos steps : Nat) : back size pos steps < size :=
  Nat.mod_lt _ h

theorem forward_zero {size pos : Nat} (h : pos < size) : forward size pos 0 = pos :=
  Nat.mod_eq_of_lt h

/-- Going on from a slot reached by a move is one longer move. -/
theorem forward_forward (size pos m n : Nat) :
    forward size (forward size pos m) n = forward size pos (m + n) := by
  simp only [forward, Nat.mod_add_mod, Nat.add_assoc]

/-- Up to the end of the cycle a move is an addition. -/
theorem forward_eq_add {size pos steps : Nat} (h : pos + steps < size) :
    forward size pos steps = pos + steps :=
  Nat.mod_eq_of_lt h

/-- From the end of the cycle on, one turn is taken off. -/
theorem forward_eq_sub {size pos steps : Nat} (h : size ≤ pos + steps)
    (h' : pos + steps < 2 * size) : forward size pos steps = pos + steps - size := by
  rw [forward, Nat.mod_eq_sub_mod h, Nat.mod_eq_of_lt (by omega)]

theorem back_forward {size pos steps : Nat} (h : pos < size) (hs : steps ≤ size) :
    back size (forward size pos steps) steps = pos := by
  rcases Nat.lt_or_ge (pos + steps) size with hlt | hge
  · rw [forward_eq_add hlt, back, show pos + steps + size - steps = pos + size by omega,
      Nat.add_mod_right, Nat.mod_eq_of_lt h]
  · rcases Nat.lt_or_ge (pos + steps) (2 * size) with hlt | hge'
    · rw [forward_eq_sub hge hlt, back, show pos + steps - size + size - steps = pos by omega,
        Nat.mod_eq_of_lt h]
    · omega

theorem forward_back {size pos steps : Nat} (h : pos < size) (hs : steps ≤ size) :
    forward size (back size pos steps) steps = pos := by
  rw [forward, back, Nat.mod_add_mod, show pos + size - steps + steps = pos + size by omega,
    Nat.add_mod_right, Nat.mod_eq_of_lt h]

/-- Two distances below a full turn that lead to one slot are equal. -/
theorem forward_injective {size pos m n : Nat} (h : pos < size) (hm : m < size) (hn : n < size)
    (heq : forward size pos m = forward size pos n) : m = n := by
  rcases Nat.lt_or_ge (pos + m) size with h1 | h1 <;>
    rcases Nat.lt_or_ge (pos + n) size with h2 | h2
  · rw [forward_eq_add h1, forward_eq_add h2] at heq
    omega
  · rw [forward_eq_add h1, forward_eq_sub h2 (by omega)] at heq
    omega
  · rw [forward_eq_sub h1 (by omega), forward_eq_add h2] at heq
    omega
  · rw [forward_eq_sub h1 (by omega), forward_eq_sub h2 (by omega)] at heq
    omega

/-- Every slot lies less than one turn ahead. -/
theorem exists_forward_eq {size pos slot : Nat} (h : pos < size) (hs : slot < size) :
    ∃ steps < size, forward size pos steps = slot := by
  rcases Nat.lt_or_ge slot pos with hlt | hge
  · refine ⟨slot + size - pos, by omega, ?_⟩
    rw [forward_eq_sub (by omega) (by omega)]
    omega
  · refine ⟨slot - pos, by omega, ?_⟩
    rw [forward_eq_add (by omega)]
    omega

end CyclicQueue.Cursor
