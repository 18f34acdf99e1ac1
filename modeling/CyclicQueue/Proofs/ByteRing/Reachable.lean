import CyclicQueue.Proofs.ByteRing.Building
import CyclicQueue.Proofs.ByteRing.Indistinguishable

/-!
# Rings that can come about

A ring comes about by a recipe, by deriving it from another one, by a call, or on either side when
one ring is poured into another. Every such ring is valid.
-/

namespace CyclicQueue.ByteRing

/-- Rings that recipes, derivations, calls and pouring lead to. -/
inductive Reachable : ByteRing → Prop
  | made {memory : Memory} {recipe : Recipe} {ring : ByteRing}
    (h : recipe.make memory = .ok ring) : Reachable ring
  | derived {memory : Memory} {derivation : Derivation} {source ring : ByteRing}
    (hsource : Reachable source) (h : source.derive memory derivation = .ok ring) :
    Reachable ring
  | answered {ring : ByteRing} (hring : Reachable ring) (memory : Memory) (call : Call) :
    Reachable (ring.answer memory call).2
  | pouredFrom {source target : ByteRing} (hsource : Reachable source)
    (htarget : Reachable target) : Reachable (pour source target).source
  | pouredInto {source target : ByteRing} (hsource : Reachable source)
    (htarget : Reachable target) : Reachable (pour source target).target

/-- A call keeps a ring valid. -/
theorem Valid.answer {ring : ByteRing} (h : ring.Valid) (memory : Memory) (call : Call) :
    (ring.answer memory call).2.Valid :=
  (h.alike.answer memory call).alike.left

theorem Valid.pour {source target : ByteRing} (hsource : source.Valid) (htarget : target.Valid) :
    (source.pour target).source.Valid ∧ (source.pour target).target.Valid := by
  obtain ⟨-, hleft, hfilled⟩ := hsource.alike.pourBy htarget.alike (List.replicate blockSize 0)
  exact ⟨hleft.left, hfilled.left⟩

theorem Reachable.valid {ring : ByteRing} (h : ring.Reachable) : ring.Valid := by
  induction h with
  | made h => exact valid_of_make h
  | derived hsource h ih => exact (ih.derive h).1
  | answered hring memory call ih => exact ih.answer memory call
  | pouredFrom hsource htarget ih ih' => exact (ih.pour ih').1
  | pouredInto hsource htarget ih ih' => exact (ih.pour ih').2

theorem Reachable.updates {ring : ByteRing} (h : ring.Reachable) (changes : List Update) :
    (ring.updates changes).2.Reachable := by
  induction changes generalizing ring with
  | nil => exact h
  | cons change changes ih => exact ih (h.answered .ordinary (.update change))

end CyclicQueue.ByteRing
