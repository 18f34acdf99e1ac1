import CyclicQueue.ByteRing.Search
import CyclicQueue.ByteRing.Stream

/-!
# Frames that a mark ends

A stream arrives in chunks and is cut into frames at every mark. A ring keeps what has arrived of
the frame that is not yet complete.
-/

namespace CyclicQueue.ByteRing

theorem len_take {ring left : ByteRing} {count : Nat} {bytes : List UInt8}
    (h : ring.take count = (.ok bytes, left)) : left.len = ring.len - count := by
  unfold take at h
  split at h
  · simp at h
  · simp only [Prod.mk.injEq] at h
    rw [← h.2, advance]

/-- Takes every complete frame out of a ring, and drops the mark behind each. -/
def drainFrames (mark : List UInt8) (ring : ByteRing) :
    Except Fault (List (List UInt8)) × ByteRing :=
  match _hfind : ring.find mark with
  | none => (.ok [], ring)
  | some position =>
    match _htake : ring.take position with
    | (.error fault, ring) => (.error fault, ring)
    | (.ok frame, ring) =>
      match _hdiscard : ring.discard mark.length with
      | (.error fault, ring) => (.error fault, ring)
      | (.ok (), ring) =>
        match drainFrames mark ring with
        | (.error fault, ring) => (.error fault, ring)
        | (.ok frames, ring) => (.ok (frame :: frames), ring)
termination_by ring.len
decreasing_by
  have hfound := search_spec _hfind
  have := List.length_pos_iff.2 hfound.1
  have := len_take _htake
  have := len_discard _hdiscard
  omega

/-- Adds one chunk after the other, and takes the frames out after each. -/
def feedFrames (mark : List UInt8) (ring : ByteRing) :
    List (List UInt8) → Except Fault (List (List UInt8)) × ByteRing
  | [] => (.ok [], ring)
  | chunk :: chunks =>
    match ring.pushSlice chunk with
    | (.error fault, ring) => (.error fault, ring)
    | (.ok (), ring) =>
      match drainFrames mark ring with
      | (.error fault, ring) => (.error fault, ring)
      | (.ok frames, ring) =>
        match feedFrames mark ring chunks with
        | (.error fault, ring) => (.error fault, ring)
        | (.ok more, ring) => (.ok (frames ++ more), ring)

end CyclicQueue.ByteRing
