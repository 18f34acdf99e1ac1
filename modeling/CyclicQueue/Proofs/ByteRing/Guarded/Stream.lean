import CyclicQueue.ByteRing.Guarded.Session
import CyclicQueue.Proofs.ByteRing.Guarded.Look
import CyclicQueue.Proofs.ByteRing.Streaming

/-!
# No stream request is stopped

What is written and read is in blocks of the machine, and every turn of a loop over a stream gets
further. So the loops come to their ends, and their sums stay words.
-/

namespace CyclicQueue.ByteRing

open Machine

variable {ring source target : ByteRing}

theorem Valid.count_le_of_read (h : ring.Valid) {buffer : List UInt8} {count : Nat}
    (hread : (ring.read buffer).outcome = .ok count) : count ≤ buffer.length := by
  rw [h.read_eq] at hread
  cases hread
  exact Nat.min_le_left _ _

namespace Guarded

theorem write_eq (h : ring.Stored) {bytes : List UInt8} (hbytes : bytes.length ≤ blockLimit) :
    write ring bytes = .ok (ring.write bytes) := by
  rw [write, free_eq h, ok_bind]
  dsimp only
  rw [pushRange_eq h hbytes, ok_bind, ByteRing.write]
  rcases ring.pushRange bytes 0 (min bytes.length ring.free) with ⟨_ | _, _⟩ <;> rfl

theorem read_eq (h : ring.Stored) {buffer : List UInt8} (hbuffer : buffer.length ≤ blockLimit) :
    read ring buffer = .ok (ring.read buffer) := by
  rw [read, ByteRing.read]
  rw [copyTo_eq h _ _ hbuffer, ok_bind]
  rcases ring.copyTo 0 (min buffer.length ring.len) buffer 0 with ⟨_ | _, _⟩
  · rfl
  · simp only [discard_eq h, ok_bind]
    rcases ring.discard (min buffer.length ring.len) with ⟨_ | _, _⟩ <;> rfl

theorem length_find?_getD_le {chunks : List (List UInt8)} {bound : Nat}
    (h : ∀ chunk ∈ chunks, chunk.length ≤ bound) (test : List UInt8 → Bool) :
    ((chunks.find? test).getD []).length ≤ bound := by
  cases hfound : chunks.find? test with
  | none => exact Nat.zero_le _
  | some chunk => exact h chunk (List.mem_of_find?_eq_some hfound)

theorem writeVectored_eq (h : ring.Stored) {chunks : List (List UInt8)}
    (hchunks : ∀ chunk ∈ chunks, chunk.length ≤ blockLimit) :
    writeVectored ring chunks = .ok (ring.writeVectored chunks) :=
  write_eq h (length_find?_getD_le hchunks _)

theorem readVectored_eq (h : ring.Stored) {buffers : List (List UInt8)}
    (hbuffers : ∀ buffer ∈ buffers, buffer.length ≤ blockLimit) :
    readVectored ring buffers = .ok (ring.readVectored buffers) := by
  induction buffers with
  | nil =>
    rw [readVectored, read_eq h (Nat.zero_le _)]
    rfl
  | cons buffer buffers ih =>
    cases buffer with
    | nil =>
      rw [readVectored, ih fun later hlater => hbuffers later (List.mem_cons_of_mem _ hlater)]
      rfl
    | cons byte buffer =>
      rw [readVectored, read_eq h (hbuffers _ List.mem_cons_self)]
      rfl
      simp

theorem writeAll_eq (h : ring.Stored) {bytes : List UInt8} (hbytes : bytes.length ≤ blockLimit) :
    writeAll ring bytes = .ok (ring.writeAll bytes) := by
  fun_induction ByteRing.writeAll ring bytes with
  | case1 ring =>
    rw [writeAll, if_pos rfl]
    rfl
  | case2 ring bytes hne fault left hwrite =>
    rw [writeAll, if_neg hne, write_eq h hbytes, ok_bind, hwrite]
    rfl
  | case3 ring bytes hne left hwrite =>
    rw [writeAll, if_neg hne, write_eq h hbytes, ok_bind, hwrite]
    rfl
  | case4 ring bytes hne count left hwrite ih =>
    have hleft := h.of_leads (h.valid.leads_write bytes)
    have hcount : count + 1 ≤ bytes.length := by
      rw [h.valid.write_eq] at hwrite
      have := Except.ok.inj (congrArg Prod.fst hwrite)
      omega
    rw [hwrite] at hleft
    have hrest : (bytes.drop (count + 1)).length < bytes.length := by
      rw [List.length_drop]
      omega
    rw [writeAll, if_neg hne, write_eq h hbytes, ok_bind, hwrite]
    simp only
    rw [slice_length hcount, ok_bind, if_pos hrest, ih hleft (by omega)]

theorem readExact_eq (h : ring.Stored) {buffer : List UInt8}
    (hbuffer : buffer.length ≤ blockLimit) :
    readExact ring buffer = .ok (ring.readExact buffer) := by
  fun_induction ByteRing.readExact ring buffer with
  | case1 ring =>
    rw [readExact, if_pos rfl]
    rfl
  | case2 ring buffer hne reading fault hread =>
    rw [readExact, if_neg hne, read_eq h hbuffer, ok_bind, hread]
    rfl
  | case3 ring buffer hne reading hread =>
    rw [readExact, if_neg hne, read_eq h hbuffer, ok_bind, hread]
    rfl
  | case4 ring buffer hne reading count hread rest ih =>
    have hcount := h.valid.count_le_of_read hread
    have hlength := ring.length_buffer_read buffer
    have hback : (reading.buffer.drop (count + 1)).length < buffer.length := by
      rw [List.length_drop, hlength]
      omega
    rw [readExact, if_neg hne, read_eq h hbuffer, ok_bind, hread]
    simp only
    rw [splitAt_eq (by omega), ok_bind, if_pos hback,
      ih (h.of_leads (h.valid.leads_read buffer)) (by omega)]
    rfl

/-- A turn that reads something gets further. -/
theorem drain_of_read (h : ring.Stored) {probe : List UInt8} (hprobe : probe.length ≤ blockLimit)
    {count : Nat} (hread : (ring.read probe).outcome = .ok (count + 1))
    {rest : Except StreamFault (List UInt8) × ByteRing}
    (hrest : drain probe (ring.read probe).ring = .ok rest) :
    drain probe ring =
      .ok (rest.1.map ((ring.read probe).buffer.take (count + 1) ++ ·), rest.2) := by
  have hcount := h.valid.count_le_of_read hread
  have hlength := ring.length_buffer_read probe
  obtain ⟨hle, hless⟩ := len_read hread
  rw [drain, read_eq h hprobe, ok_bind, hread]
  simp only
  rw [slice_zero (by omega), ok_bind, if_pos (by omega), hrest, ok_bind]
  rcases rest with ⟨_ | _, _⟩ <;> rfl

theorem drain_eq (h : ring.Stored) {probe : List UInt8} (hprobe : probe.length ≤ blockLimit) :
    drain probe ring = .ok (ByteRing.drain probe ring) := by
  fun_induction ByteRing.drain probe ring with
  | case1 ring reading fault hread =>
    rw [drain, read_eq h hprobe, ok_bind, hread]
    rfl
  | case2 ring reading hread =>
    rw [drain, read_eq h hprobe, ok_bind, hread]
    rfl
  | case3 ring reading count hread fault left hrest ih =>
    rw [drain_of_read h hprobe hread (ih (h.of_leads (h.valid.leads_read probe))), hrest]
    rfl
  | case4 ring reading count hread bytes left hrest ih =>
    rw [drain_of_read h hprobe hread (ih (h.of_leads (h.valid.leads_read probe))), hrest]
    rfl

theorem readToEnd_eq (h : ring.Stored) : readToEnd ring = .ok ring.readToEnd :=
  drain_eq h (by decide)

theorem readToText_eq (h : ring.Stored) : readToText ring = .ok ring.readToText := by
  rw [readToText, readToEnd_eq h, ok_bind, ByteRing.readToText]
  rcases ring.readToEnd with ⟨_ | bytes, _⟩
  · rfl
  · dsimp only
    cases Text.Utf8.decode? bytes <;> rfl

theorem length_take_read_le (ring : ByteRing) {buffer : List UInt8}
    (hbuffer : buffer.length ≤ blockLimit) (count : Nat) :
    ((ring.read buffer).buffer.take count).length ≤ blockLimit := by
  rw [List.length_take, length_buffer_read]
  omega

/-- What was poured and what is still to come never exceed what the source held. -/
theorem pourBy_eq (hsource : source.Stored) (htarget : target.Stored) {block : List UInt8}
    (hblock : block.length ≤ blockLimit) {poured : Nat}
    (hpoured : poured + source.len ≤ blockLimit) :
    pourBy block poured source target =
      .ok { ByteRing.pourBy block source target with
        outcome := (ByteRing.pourBy block source target).outcome.map (poured + ·) } := by
  have hword := wordLimit_eq
  fun_induction ByteRing.pourBy block source target generalizing poured with
  | case1 source target reading fault hread =>
    rw [pourBy, read_eq hsource hblock, ok_bind, hread]
    rfl
  | case2 source target reading hread =>
    rw [pourBy, read_eq hsource hblock, ok_bind, hread]
    rfl
  | case3 source target reading count hread fault filled hwrite =>
    have hcount := hsource.valid.count_le_of_read hread
    have hlength := source.length_buffer_read block
    have hfront := length_take_read_le source hblock (count + 1)
    rw [pourBy, read_eq hsource hblock, ok_bind, hread]
    simp only
    rw [slice_zero (by omega), ok_bind, writeAll_eq htarget hfront, ok_bind, hwrite]
    rfl
  | case4 source target reading count hread filled hwrite rest ih =>
    have hcount := hsource.valid.count_le_of_read hread
    have hlength := source.length_buffer_read block
    have hfront := length_take_read_le source hblock (count + 1)
    obtain ⟨hle, hless⟩ := len_read hread
    have hstill : poured + (count + 1) + (source.read block).ring.len ≤ blockLimit := by omega
    have hfilled :=
      htarget.of_leads (htarget.valid.leads_writeAll (reading.buffer.take (count + 1)))
    rw [hwrite] at hfilled
    rw [pourBy, read_eq hsource hblock, ok_bind, hread]
    simp only
    rw [slice_zero (by omega), ok_bind, writeAll_eq htarget hfront, ok_bind, hwrite]
    simp only
    rw [add_eq (by omega), ok_bind, if_pos (by omega),
      ih (hsource.of_leads (hsource.valid.leads_read block)) hfilled hstill,
      map_add_map_add]

theorem pour_eq (hsource : source.Stored) (htarget : target.Stored) :
    pour source target = .ok (source.pour target) := by
  have hlen := hsource.valid.len_lt
  have hsize := hsource.size_le
  have hblock : (List.replicate blockSize (0 : UInt8)).length ≤ blockLimit := by
    rw [List.length_replicate]
    decide
  rw [pour, pourBy_eq hsource htarget hblock (by omega), ByteRing.pour]
  cases hpoured : ByteRing.pourBy (List.replicate blockSize 0) source target with
  | mk outcome left filled =>
    cases outcome with
    | error fault => rfl
    | ok poured =>
      simp only [Except.map, Nat.zero_add]

end Guarded

end CyclicQueue.ByteRing
