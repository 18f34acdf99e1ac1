import CyclicQueue.ByteRing.Stream
import CyclicQueue.Proofs.ByteRing.Looking

/-!
# What the steps and loops of a stream move

A step never fails: it moves as many bytes as fit or as there are. A loop that writes or reads
stops after one step more, since the ring is full or empty by then.
-/

namespace CyclicQueue.ByteRing

variable {ring : ByteRing}

theorem overwrite_zero {target bytes : List UInt8} (h : bytes.length ≤ target.length) :
    overwrite target 0 bytes = bytes ++ target.drop bytes.length := by
  rw [overwrite_eq (by omega), List.take_zero, List.nil_append, Nat.zero_add]

/-! ## Steps -/

theorem Valid.write_eq (h : ring.Valid) (bytes : List UInt8) :
    ring.write bytes = (.ok (min bytes.length ring.free), ring.append (bytes.take ring.free)) := by
  have hrange : checkRange bytes.length 0 (min bytes.length ring.free) = .ok () :=
    checkRange_eq_ok_iff.2 ⟨Or.inl rfl, by omega⟩
  have htake : bytes.take (min bytes.length ring.free) = bytes.take ring.free := by
    rw [Nat.min_comm, ← List.take_eq_take_min]
  simp only [write, h.pushRange_eq hrange (Nat.min_le_right _ _), List.drop_zero, htake]

theorem Valid.read_eq (h : ring.Valid) (buffer : List UInt8) :
    ring.read buffer =
      ⟨.ok (min buffer.length ring.len),
        ring.toList.take buffer.length ++ buffer.drop ring.len,
        ring.advance (min buffer.length ring.len)⟩ := by
  have hlen := h.length_toList
  have hsource : checkRange ring.toList.length 0 (min buffer.length ring.len) = .ok () :=
    checkRange_eq_ok_iff.2 ⟨Or.inl rfl, by omega⟩
  have htarget : checkRange buffer.length 0 (min buffer.length ring.len) = .ok () :=
    checkRange_eq_ok_iff.2 ⟨Or.inl rfl, by omega⟩
  have hmoved : (ring.toList.take (min buffer.length ring.len)).length =
      min buffer.length ring.len := by
    rw [List.length_take]
    omega
  have hbuffer : overwrite buffer 0 (ring.toList.take (min buffer.length ring.len)) =
      ring.toList.take buffer.length ++ buffer.drop ring.len := by
    rw [overwrite_zero (by omega), hmoved, ← hlen, ← List.take_eq_take_min, Nat.min_comm]
    congr 1
    apply List.drop_eq_drop_iff.2
    omega
  simp only [read, h.copyTo_eq, hsource, htarget, List.drop_zero, hbuffer,
    h.discard_eq (Nat.min_le_right _ _)]

/-- The bytes of a buffer that a read counts are those it has taken off the front. -/
theorem Valid.take_read (h : ring.Valid) {buffer : List UInt8} {count : Nat}
    (hcount : min buffer.length ring.len = count) :
    (ring.toList.take buffer.length ++ buffer.drop ring.len).take count =
      ring.toList.take buffer.length := by
  apply List.take_left'
  rw [List.length_take, h.length_toList, hcount]

/-! ## Loops -/

theorem writeAll_nil (ring : ByteRing) : ring.writeAll [] = (.ok (), ring) := by
  rw [writeAll, dif_pos rfl]

theorem Valid.writeAll_of_full (h : ring.Valid) (hfull : ring.free = 0) {bytes : List UInt8}
    (hne : bytes ≠ []) : ring.writeAll bytes = (.error .notAllWritten, ring) := by
  rw [writeAll, dif_neg hne, h.write_eq, hfull, Nat.min_zero, List.take_zero, h.append_nil]

/-- What fits is written, and the rest is refused. -/
theorem Valid.writeAll_eq (h : ring.Valid) (bytes : List UInt8) :
    ring.writeAll bytes =
      (if bytes.length ≤ ring.free then .ok () else .error .notAllWritten,
        ring.append (bytes.take ring.free)) := by
  by_cases hnil : bytes = []
  · rw [hnil, writeAll_nil, List.length_nil, if_pos (Nat.zero_le _), List.take_nil, h.append_nil]
  · have hpos := List.length_pos_iff.2 hnil
    rcases Nat.eq_zero_or_pos ring.free with hfull | hroom
    · rw [h.writeAll_of_full hfull hnil, if_neg (by omega), hfull, List.take_zero, h.append_nil]
    · obtain ⟨count, hcount⟩ : ∃ count, min bytes.length ring.free = count + 1 :=
        ⟨min bytes.length ring.free - 1, by omega⟩
      have hfit : (bytes.take ring.free).length ≤ ring.free := List.length_take_le _ _
      rw [writeAll, dif_neg hnil, h.write_eq, hcount]
      simp only
      by_cases hall : bytes.length ≤ ring.free
      · rw [List.drop_of_length_le (by omega), writeAll_nil, if_pos hall]
      · have hfull : (ring.append (bytes.take ring.free)).free = 0 := by
          rw [free_append, List.length_take]
          omega
        have hrest : bytes.drop (count + 1) ≠ [] := by
          rw [← List.length_pos_iff, List.length_drop]
          omega
        rw [(h.append hfit).writeAll_of_full hfull hrest, if_neg hall]

theorem readExact_nil (ring : ByteRing) : ring.readExact [] = ⟨.ok (), [], ring⟩ := by
  rw [readExact, dif_pos rfl]

theorem Valid.readExact_of_empty (h : ring.Valid) (hzero : ring.len = 0) {buffer : List UInt8}
    (hne : buffer ≠ []) : ring.readExact buffer = ⟨.error .endsEarly, buffer, ring⟩ := by
  rw [readExact, dif_neg hne, h.read_eq, hzero, Nat.min_zero, h.advance_zero,
    h.toList_eq_nil_iff.2 hzero, List.take_nil, List.nil_append, List.drop_zero]

/-- What there is is read, and the buffer is filled or the end is told. -/
theorem Valid.readExact_eq (h : ring.Valid) (buffer : List UInt8) :
    ring.readExact buffer =
      ⟨if buffer.length ≤ ring.len then .ok () else .error .endsEarly,
        ring.toList.take buffer.length ++ buffer.drop ring.len,
        ring.advance (min buffer.length ring.len)⟩ := by
  have hlen := h.length_toList
  by_cases hnil : buffer = []
  · rw [hnil, readExact_nil, List.length_nil, if_pos (Nat.zero_le _), List.take_zero,
      List.drop_nil, List.append_nil, Nat.zero_min, h.advance_zero]
  · have hpos := List.length_pos_iff.2 hnil
    rcases Nat.eq_zero_or_pos ring.len with hzero | hsome
    · rw [h.readExact_of_empty hzero hnil, if_neg (by omega), hzero, Nat.min_zero,
        h.advance_zero, h.toList_eq_nil_iff.2 hzero, List.take_nil, List.nil_append,
        List.drop_zero]
    · obtain ⟨count, hcount⟩ : ∃ count, min buffer.length ring.len = count + 1 :=
        ⟨min buffer.length ring.len - 1, by omega⟩
      have htaken : (ring.toList.take buffer.length).length = count + 1 := by
        rw [List.length_take]
        omega
      rw [readExact, dif_neg hnil, h.read_eq, hcount]
      simp only [← htaken, List.take_left, List.drop_left]
      by_cases hall : buffer.length ≤ ring.len
      · rw [List.drop_of_length_le hall, readExact_nil, if_pos hall]
      · have hzero : (ring.advance (count + 1)).len = 0 := by
          rw [len_advance]
          omega
        have hrest : buffer.drop ring.len ≠ [] := by
          rw [← List.length_pos_iff, List.length_drop]
          omega
        rw [htaken, (h.advance (by omega)).readExact_of_empty hzero hrest, if_neg hall]

/-- Reading up to the end hands over the contents, however many bytes are read at a time. -/
theorem Valid.drain_eq (h : ring.Valid) {probe : List UInt8} (hprobe : probe ≠ []) :
    drain probe ring = (.ok ring.toList, ring.advance ring.len) := by
  induction hn : ring.len using Nat.strongRecOn generalizing ring with
  | _ n ih =>
    have hlen := h.length_toList
    have hpos := List.length_pos_iff.2 hprobe
    rw [drain]
    split
    · next fault hout =>
      rw [h.read_eq] at hout
      cases hout
    · next hout =>
      rw [h.read_eq] at hout ⊢
      have hzero : min probe.length ring.len = 0 := Except.ok.inj hout
      obtain rfl : n = 0 := by omega
      rw [h.toList_eq_nil_iff.2 hn, hzero]
    · next count hout =>
      rw [h.read_eq] at hout ⊢
      have hcount : min probe.length ring.len = count + 1 := Except.ok.inj hout
      have hle : count + 1 ≤ ring.len := by omega
      have hmet : ring.toList.take probe.length = ring.toList.take (count + 1) :=
        List.take_eq_take_iff.2 (by omega)
      simp only [hcount, h.take_read hcount]
      rw [hmet, ih (n - (count + 1)) (by omega) (h.advance hle) (by rw [len_advance, hn])]
      simp only
      have hall : count + 1 + (n - (count + 1)) = n := by omega
      rw [h.toList_advance hle, List.take_append_drop, advance_advance, hall]

theorem Valid.readToEnd_eq (h : ring.Valid) :
    ring.readToEnd = (.ok ring.toList, ring.advance ring.len) :=
  h.drain_eq (by decide)

theorem Valid.readToText_eq (h : ring.Valid) :
    ring.readToText =
      (match Text.Utf8.decode? ring.toList with
        | none => .error .noText
        | some text => .ok text,
        ring.advance ring.len) := by
  simp only [readToText, h.readToEnd_eq]
  cases Text.Utf8.decode? ring.toList <;> rfl

theorem map_add_map_add {ε : Type} (result : Except ε Nat) (m n : Nat) :
    (result.map (· + n)).map (m + ·) = result.map (m + n + ·) := by
  cases result with
  | error fault => rfl
  | ok value =>
    simp only [Except.map, Except.ok.injEq]
    omega

/-- One turn of pouring: a block is read and written, and the rest is poured the same way. -/
theorem Valid.pourBy_eq {source : ByteRing} (h : source.Valid) (block : List UInt8)
    (target : ByteRing) :
    pourBy block source target =
      if min block.length source.len = 0 then ⟨.ok 0, source, target⟩
      else
        let left := source.advance (min block.length source.len)
        match target.writeAll (source.toList.take block.length) with
        | (.error fault, target) => ⟨.error fault, left, target⟩
        | (.ok (), target) =>
          let rest := pourBy block left target
          { rest with outcome := rest.outcome.map (· + min block.length source.len) } := by
  rw [pourBy]
  split
  · next fault hout =>
    rw [h.read_eq] at hout
    cases hout
  · next hout =>
    rw [h.read_eq] at hout ⊢
    have hzero : min block.length source.len = 0 := Except.ok.inj hout
    rw [if_pos hzero, hzero, h.advance_zero]
  · next count hout =>
    rw [h.read_eq] at hout ⊢
    have hcount : min block.length source.len = count + 1 := Except.ok.inj hout
    rw [if_neg (by omega)]
    rcases hwrite : target.writeAll (source.toList.take block.length) with ⟨fault | _, filled⟩
    · simp only [h.take_read hcount, hcount, hwrite]
    · simp only [h.take_read hcount, hcount, hwrite]

end CyclicQueue.ByteRing
