import CyclicQueue.ByteRing.Tally
import CyclicQueue.Proofs.ByteRing.Reachable

/-!
# What a request does to a ring

A change is refused and leaves the ring as it is, or it empties the ring, adds bytes that fit or
passes bytes that are held. Every call does so a number of times, and so does pouring on either
side. Whatever these moves keep is kept by every request.
-/

namespace CyclicQueue.ByteRing

variable {ring : ByteRing}

/-! ## One change -/

/-- The outcomes of a change together with the ring that each leaves, and how many bytes it takes in
or passes. -/
inductive Moved (ring : ByteRing) (change : Update) : Except Fault Removed × ByteRing → Prop
  | refused (fault : Fault) : Moved ring change (.error fault, ring)
  | cleared (hclear : change = .clear) : Moved ring change (.ok .nothing, ring.clear)
  | added {bytes : List UInt8} (hfit : bytes.length ≤ ring.free)
    (hadds : change.adds = bytes.length) (hremoves : change.removes = 0) :
    Moved ring change (.ok .nothing, ring.append bytes)
  | removed (handed : Removed) (hheld : change.removes ≤ ring.len) (hadds : change.adds = 0) :
    Moved ring change (.ok handed, ring.advance change.removes)

theorem Valid.moved_pushRange (h : ring.Valid) {change : Update} {bytes : List UInt8}
    {offset length : Nat} (hadds : change.adds = length) (hremoves : change.removes = 0) :
    ring.Moved change (handing (fun _ => .nothing) (ring.pushRange bytes offset length)) := by
  cases hrange : checkRange bytes.length offset length with
  | error fault =>
    simp only [pushRange, hrange]
    exact .refused fault
  | ok _ =>
    rcases Nat.lt_or_ge ring.free length with hlack | hroom
    · have hne : length ≠ 0 := by omega
      simp only [pushRange, hrange, if_neg hne, if_pos hlack]
      exact .refused _
    · have htaken : ((bytes.drop offset).take length).length = length :=
        length_of_checkRange hrange
      rw [h.pushRange_eq hrange hroom]
      exact .added (htaken.symm ▸ hroom) (hadds.trans htaken.symm) hremoves

/-- The guard of a bulk removal lets only a count pass that is held. -/
theorem moved_of_checkCount {α : Type} {change : Update} (hadds : change.adds = 0)
    (make : α → Removed) (value : α) :
    ring.Moved change
      (handing make
        (match ring.checkCount change.removes with
        | .error fault => (.error fault, ring)
        | .ok () => (.ok value, ring.advance change.removes))) := by
  cases hcount : ring.checkCount change.removes with
  | error fault => exact .refused fault
  | ok _ => exact .removed _ (le_of_checkCount hcount) hadds

theorem Valid.moved_update (h : ring.Valid) (change : Update) :
    ring.Moved change (ring.update change) := by
  cases change with
  | clear => exact .cleared rfl
  | push byte =>
    cases hfull : ring.isFull with
    | true =>
      simp only [update, push, hfull, if_true]
      exact .refused _
    | false =>
      have hne : ring.len ≠ ring.capacity := isFull_eq_false_iff.1 hfull
      have hle := h.len_le
      have hroom : [byte].length ≤ ring.free := by
        rw [List.length_singleton, free]
        omega
      simp only [update, push_eq_append h hfull]
      exact .added hroom rfl rfl
  | pushSlice bytes => exact h.moved_pushRange rfl rfl
  | pushRange bytes offset length => exact h.moved_pushRange rfl rfl
  | pop =>
    cases hempty : ring.isEmpty with
    | true =>
      simp only [update, pop, hempty, if_true]
      exact .refused _
    | false =>
      have hne : ring.len ≠ 0 := isEmpty_eq_false_iff.1 hempty
      simp only [update, pop, hempty]
      exact .removed _ (Nat.one_le_iff_ne_zero.2 hne) rfl
  | take count => exact moved_of_checkCount rfl _ _
  | discard count => exact moved_of_checkCount rfl _ _

/-! ## Chains of moves -/

/-- The rings that moves lead to. -/
inductive Leads (ring : ByteRing) : ByteRing → Prop
  | refl : Leads ring ring
  | clear {left : ByteRing} (h : Leads ring left) : Leads ring left.clear
  | append {left : ByteRing} {bytes : List UInt8} (h : Leads ring left)
    (hfit : bytes.length ≤ left.free) : Leads ring (left.append bytes)
  | advance {left : ByteRing} {count : Nat} (h : Leads ring left) (hheld : count ≤ left.len) :
    Leads ring (left.advance count)

namespace Leads

variable {left last : ByteRing}

theorem trans (h : ring.Leads left) (h' : left.Leads last) : ring.Leads last := by
  induction h' with
  | refl => exact h
  | clear _ ih => exact ih.clear
  | append _ hfit ih => exact ih.append hfit
  | advance _ hheld ih => exact ih.advance hheld

theorem valid (h : ring.Leads left) (hring : ring.Valid) : left.Valid := by
  induction h with
  | refl => exact hring
  | clear _ ih => exact ih.clear
  | append _ hfit ih => exact ih.append hfit
  | advance _ hheld ih => exact ih.advance hheld

/-- No move changes the size of the storage. -/
theorem size_eq (h : ring.Leads left) : left.storage.size = ring.storage.size := by
  induction h with
  | refl => rfl
  | clear _ ih => exact ih
  | append _ _ ih => rw [size_storage_append, ih]
  | advance _ _ ih => exact ih

theorem capacity_eq (h : ring.Leads left) : left.capacity = ring.capacity := by
  rw [capacity, h.size_eq, capacity]

theorem of_moved {change : Update} {result : Except Fault Removed × ByteRing}
    (h : ring.Moved change result) : ring.Leads result.2 := by
  cases h with
  | refused fault => exact .refl
  | cleared => exact .clear .refl
  | added hfit => exact .append .refl hfit
  | removed handed hheld => exact .advance .refl hheld

end Leads

/-! ## Requests -/

theorem Valid.leads_write (h : ring.Valid) (bytes : List UInt8) :
    ring.Leads (ring.write bytes).2 := by
  rw [h.write_eq]
  exact .append .refl (List.length_take_le _ _)

theorem Valid.leads_writeAll (h : ring.Valid) (bytes : List UInt8) :
    ring.Leads (ring.writeAll bytes).2 := by
  rw [h.writeAll_eq]
  exact .append .refl (List.length_take_le _ _)

theorem Valid.leads_read (h : ring.Valid) (buffer : List UInt8) :
    ring.Leads (ring.read buffer).ring := by
  rw [h.read_eq]
  exact .advance .refl (Nat.min_le_right _ _)

theorem Valid.leads_readVectored (h : ring.Valid) (buffers : List (List UInt8)) :
    ring.Leads (ring.readVectored buffers).2.2 := by
  induction buffers with
  | nil => exact h.leads_read []
  | cons buffer buffers ih =>
    cases buffer with
    | nil => exact ih
    | cons byte buffer => exact h.leads_read (byte :: buffer)

/-- A call makes moves and nothing else. -/
theorem Valid.leads_answer (h : ring.Valid) (memory : Memory) (call : Call) :
    ring.Leads (ring.answer memory call).2 := by
  cases call with
  | update change => exact .of_moved (h.moved_update change)
  | write bytes => exact h.leads_write bytes
  | writeAll bytes => exact h.leads_writeAll bytes
  | writeVectored chunks => exact h.leads_write _
  | read buffer => exact h.leads_read buffer
  | readExact buffer =>
    simp only [ByteRing.answer, h.readExact_eq]
    exact .advance .refl (Nat.min_le_right _ _)
  | readVectored buffers => exact h.leads_readVectored buffers
  | readToEnd =>
    simp only [ByteRing.answer, h.readToEnd_eq]
    exact .advance .refl (Nat.le_refl _)
  | readToText =>
    simp only [ByteRing.answer, h.readToText_eq]
    exact .advance .refl (Nat.le_refl _)
  | _ => exact .refl

/-- Pouring makes moves on both sides. The induction is on what is left of the source. -/
theorem Valid.leads_pourBy {source target : ByteRing} (hsource : source.Valid)
    (htarget : target.Valid) (block : List UInt8) :
    source.Leads (pourBy block source target).source ∧
      target.Leads (pourBy block source target).target := by
  induction hn : source.len using Nat.strongRecOn generalizing source target with
  | _ n ih =>
    rw [hsource.pourBy_eq]
    by_cases hzero : min block.length source.len = 0
    · rw [if_pos hzero]
      exact ⟨.refl, .refl⟩
    · rw [if_neg hzero]
      have hleft : source.Leads (source.advance (min block.length source.len)) :=
        .advance .refl (Nat.min_le_right _ _)
      have hfilled := htarget.leads_writeAll (source.toList.take block.length)
      rcases hwrite : target.writeAll (source.toList.take block.length) with ⟨outcome, filled⟩
      rw [hwrite] at hfilled
      cases outcome with
      | error fault => exact ⟨hleft, hfilled⟩
      | ok _ =>
        obtain ⟨hrest, hrest'⟩ := ih (n - min block.length source.len) (by omega)
          (hleft.valid hsource) (hfilled.valid htarget) (by rw [len_advance, hn])
        exact ⟨hleft.trans hrest, hfilled.trans hrest'⟩

end CyclicQueue.ByteRing
