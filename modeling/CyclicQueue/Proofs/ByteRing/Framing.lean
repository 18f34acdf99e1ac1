import CyclicQueue.ByteRing.Framing
import CyclicQueue.Proofs.ByteRing.Looking

/-!
# Frames do not depend on the chunks

Taking out every complete frame cuts the contents at every mark and leaves what follows the last
one. Hence the frames taken out while chunks arrive are those of the chunks put together.
-/

namespace CyclicQueue.ByteRing

variable {ring : ByteRing} {mark : List UInt8}

/-- Every chunk has room when its turn comes. -/
def ChunksFit (mark : List UInt8) : ByteRing → List (List UInt8) → Prop
  | _, [] => True
  | ring, chunk :: chunks =>
    (ring.pushSlice chunk).1 = .ok () ∧
      ChunksFit mark (drainFrames mark (ring.pushSlice chunk).2).2 chunks

theorem drainFrames_of_none (hfind : ring.find mark = none) :
    ring.drainFrames mark = (.ok [], ring) := by
  rw [drainFrames]
  split
  · rfl
  · next hsome =>
    rw [hfind] at hsome
    cases hsome

/-- One turn of the loop takes the first frame out, and its mark. -/
theorem Valid.drainFrames_of_some (h : ring.Valid) {position : Nat}
    (hfind : ring.find mark = some position) :
    ring.drainFrames mark =
      match (ring.advance (position + mark.length)).drainFrames mark with
      | (.error fault, left) => (.error fault, left)
      | (.ok frames, left) => (.ok (ring.toList.take position :: frames), left) := by
  obtain ⟨hne, -, hend⟩ := search_spec hfind
  have hbefore : position ≤ ring.len := by omega
  have hbehind : mark.length ≤ (ring.advance position).len := by
    rw [len_advance]
    omega
  have htake := h.take_eq hbefore
  have hdiscard := (h.advance hbefore).discard_eq hbehind
  rw [advance_advance] at hdiscard
  rw [drainFrames]
  split
  · next hnone =>
    rw [hfind] at hnone
    cases hnone
  · next found hfound =>
    cases hfind.symm.trans hfound
    split
    · next hfault =>
      cases htake.symm.trans hfault
    · next hframe =>
      cases htake.symm.trans hframe
      split
      · next hfault =>
        cases hdiscard.symm.trans hfault
      · next hdone =>
        cases hdiscard.symm.trans hdone
        rfl

/-- The frames taken out of a ring are the parts that its marks end. -/
theorem Valid.drainFrames_eq (h : ring.Valid) (hmark : mark ≠ []) :
    ∃ left, ring.drainFrames mark = (.ok (Bytes.split mark ring.toList).1, left) ∧
      left.Valid ∧ left.capacity = ring.capacity ∧
      left.toList = (Bytes.split mark ring.toList).2 := by
  induction hn : ring.len using Nat.strongRecOn generalizing ring with
  | _ n ih =>
    cases hfind : ring.find mark with
    | none =>
      have hbreak := h.breakAt?_of_search_none hmark hfind
      rw [List.drop_zero] at hbreak
      rw [drainFrames_of_none hfind, Bytes.split_of_none hbreak]
      exact ⟨ring, rfl, h, rfl, rfl⟩
    | some position =>
      have hbreak := h.breakAt?_of_search hfind
      rw [List.drop_zero, Nat.sub_zero] at hbreak
      obtain ⟨-, -, hend⟩ := search_spec hfind
      have hpos := List.length_pos_iff.2 hmark
      obtain ⟨left, hdrain, hvalid, hcapacity, hleft⟩ :=
        ih (n - (position + mark.length)) (by omega) (h.advance hend) (by rw [len_advance, hn])
      rw [h.toList_advance hend] at hdrain hleft
      rw [h.drainFrames_of_some hfind, hdrain, Bytes.split_of_some hmark hbreak]
      exact ⟨left, rfl, hvalid, hcapacity, hleft⟩

/-- What has arrived of an incomplete frame, and the chunks to come, are cut as one list. -/
theorem Valid.feedFrames_eq (h : ring.Valid) (hmark : mark ≠ [])
    (hnone : Bytes.breakAt? mark ring.toList = none) {chunks : List (List UInt8)}
    (hfit : ChunksFit mark ring chunks) :
    ∃ left, ring.feedFrames mark chunks =
        (.ok (Bytes.split mark (ring.toList ++ chunks.flatten)).1, left) ∧
      left.Valid ∧ left.capacity = ring.capacity ∧
      left.toList = (Bytes.split mark (ring.toList ++ chunks.flatten)).2 := by
  induction chunks generalizing ring with
  | nil =>
    rw [List.flatten_nil, List.append_nil, Bytes.split_of_none hnone]
    exact ⟨ring, rfl, h, rfl, rfl⟩
  | cons chunk chunks ih =>
    obtain ⟨hpush, hrest⟩ := hfit
    have hroom := h.pushSlice_ok_iff.1 hpush
    rw [h.pushSlice_eq hroom] at hrest
    obtain ⟨middle, hdrain, hvalid, hcapacity, hmiddle⟩ := (h.append hroom).drainFrames_eq hmark
    rw [h.toList_append hroom] at hdrain hmiddle
    rw [hdrain] at hrest
    obtain ⟨left, hfeed, hvalid', hcapacity', hleft⟩ :=
      ih hvalid (hmiddle ▸ Bytes.breakAt?_split hmark _) hrest
    have hwhole := Bytes.split_append hmark (ring.toList ++ chunk) chunks.flatten
    rw [← hmiddle, List.append_assoc, ← List.flatten_cons] at hwhole
    refine ⟨left, ?_, hvalid', ?_, ?_⟩
    · simp only [feedFrames, h.pushSlice_eq hroom, hdrain, hfeed, hwhole]
    · rw [hcapacity', hcapacity, capacity_append]
    · rw [hleft, hwhole]

/-- A stream that arrives in chunks at an empty ring is cut at every mark from the left, as if it
had arrived at once. -/
theorem feedFrames_chunk_independent (hmark : mark ≠ []) (h : ring.Valid)
    (hempty : ring.isEmpty = true) {chunks : List (List UInt8)}
    (hfit : ChunksFit mark ring chunks) :
    ∃ frames left, ring.feedFrames mark chunks = (.ok frames, left) ∧ left.Valid ∧
      left.capacity = ring.capacity ∧
      (frames, left.toList) = Bytes.split mark chunks.flatten ∧
      Bytes.join mark frames left.toList = chunks.flatten ∧
      (∀ frame ∈ frames, ¬ mark <:+: frame) ∧ ¬ mark <:+: left.toList ∧
      ∀ whole : ByteRing, whole.Valid → whole.toList = chunks.flatten →
        whole.occurrences mark = some frames.length := by
  have hnil : ring.toList = [] := h.toList_eq_nil_iff.2 (by simpa [isEmpty] using hempty)
  have hnone : Bytes.breakAt? mark ring.toList = none := by
    rw [hnil, Bytes.breakAt?, if_neg hmark]
  obtain ⟨left, hfeed, hvalid, hcapacity, hleft⟩ := h.feedFrames_eq hmark hnone hfit
  rw [hnil, List.nil_append] at hfeed hleft
  refine ⟨_, left, hfeed, hvalid, hcapacity, ?_, ?_, ?_, ?_, ?_⟩
  · rw [hleft]
  · rw [hleft]
    exact Bytes.join_split mark chunks.flatten
  · exact fun frame hframe => Bytes.not_infix_of_mem_split hmark hframe
  · rw [hleft]
    exact Bytes.not_infix_of_breakAt?_none hmark (Bytes.breakAt?_split hmark _)
  · intro whole hwhole heq
    rw [hwhole.occurrences_eq, if_neg hmark, heq]

/-- The mark comes in two chunks and goes round the end of the storage. -/
theorem feedFrames_mark_in_two_chunks :
    ([1, 2] : List UInt8) ≠ [] ∧ Valid ⟨#[0, 0, 0, 0, 0], 3, 3, 0⟩ ∧
      isEmpty ⟨#[0, 0, 0, 0, 0], 3, 3, 0⟩ = true ∧
      ChunksFit [1, 2] ⟨#[0, 0, 0, 0, 0], 3, 3, 0⟩ [[9, 1], [2, 7]] ∧
      ∃ frames left,
        feedFrames [1, 2] ⟨#[0, 0, 0, 0, 0], 3, 3, 0⟩ [[9, 1], [2, 7]] = (.ok frames, left) ∧
        (frames, left.toList) = ([[9]], [7]) := by
  have hvalid : Valid ⟨#[0, 0, 0, 0, 0], 3, 3, 0⟩ := ⟨by decide, by decide, by decide, by decide⟩
  have hfit : ChunksFit [1, 2] ⟨#[0, 0, 0, 0, 0], 3, 3, 0⟩ [[9, 1], [2, 7]] := by
    refine ⟨rfl, ?_, trivial⟩
    rw [drainFrames_of_none rfl]
    rfl
  refine ⟨by decide, hvalid, rfl, hfit, ?_⟩
  obtain ⟨frames, left, hfeed, -, -, hsplit, -⟩ :=
    feedFrames_chunk_independent (by decide) hvalid rfl hfit
  have hfirst : Bytes.breakAt? [1, 2] [9, 1, 2, 7] = some ([9], [7]) := by decide
  have hlast : Bytes.breakAt? [1, 2] [7] = none := by decide
  refine ⟨frames, left, hfeed, hsplit.trans ?_⟩
  change Bytes.split [1, 2] [9, 1, 2, 7] = _
  rw [Bytes.split_of_some (by decide) hfirst, Bytes.split_of_none hlast]

end CyclicQueue.ByteRing
