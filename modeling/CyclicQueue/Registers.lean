/-!
# Values under names

A value is kept under a name until another one is put there.
-/

namespace CyclicQueue

structure Registers (α : Type) where
  entries : List (String × α)

namespace Registers

variable {α : Type}

def empty : Registers α :=
  ⟨[]⟩

def get? (registers : Registers α) (name : String) : Option α :=
  registers.entries.lookup name

/-- Puts a value under a name, in place of the one there. -/
def put (registers : Registers α) (name : String) (value : α) : Registers α :=
  ⟨(name, value) :: registers.entries.filter fun entry => entry.1 != name⟩

theorem get?_put_self (registers : Registers α) (name : String) (value : α) :
    (registers.put name value).get? name = some value := by
  simp [get?, put]

theorem get?_put_of_ne (registers : Registers α) {name other : String} (value : α)
    (h : other ≠ name) : (registers.put name value).get? other = registers.get? other := by
  have hfilter : ∀ entries : List (String × α),
      (entries.filter fun entry => entry.1 != name).lookup other = entries.lookup other := by
    intro entries
    induction entries with
    | nil => rfl
    | cons entry entries ih =>
      obtain ⟨key, kept⟩ := entry
      by_cases hkey : key = name
      · subst hkey
        rw [List.filter_cons_of_neg (by simp), List.lookup_cons, beq_eq_false_iff_ne.2 h]
        exact ih
      · rw [List.filter_cons_of_pos (by simpa using hkey), List.lookup_cons, List.lookup_cons, ih]
  rw [get?, put, List.lookup_cons, beq_eq_false_iff_ne.2 h]
  exact hfilter registers.entries

end Registers

end CyclicQueue
