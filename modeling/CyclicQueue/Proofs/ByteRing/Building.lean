import CyclicQueue.ByteRing.Session
import CyclicQueue.Proofs.ByteRing.Changes

/-!
# Rings as they are built

Every way to build a ring gives a blank storage with the contents laid out from slot 0 on, whether
they are copied there in two pieces, added as one range or added piece by piece.
-/

namespace CyclicQueue

/-- What a ring is made to hold: there is room for one byte at least, and for all that it holds. -/
structure Fifo.Fits (queue : Fifo) : Prop where
  pos : 1 ≤ queue.capacity
  bounded : queue.Bounded

namespace ByteRing

/-! ## Storages -/

theorem writeRun_append (storage : Array UInt8) (start : Nat) (first second : List UInt8) :
    writeRun (writeRun storage start first) (start + first.length) second =
      writeRun storage start (first ++ second) := by
  induction first generalizing storage start with
  | nil => rfl
  | cons byte first ih =>
    rw [List.cons_append, writeRun, writeRun, List.length_cons, ← ih,
      show start + (first.length + 1) = start + 1 + first.length by omega]

theorem Valid.length_lt_size {ring : ByteRing} (h : ring.Valid) {bytes : List UInt8}
    (hb : bytes.length ≤ ring.free) : bytes.length < ring.storage.size := by
  have hsize := h.size_eq
  unfold free at hb
  omega

/-- The slots that a second lot of bytes goes to follow those of the first. -/
theorem forward_writePos_append (ring : ByteRing) (bytes : List UInt8) (k : Nat) :
    Cursor.forward (ring.append bytes).storage.size (ring.append bytes).writePos k =
      Cursor.forward ring.storage.size ring.writePos (bytes.length + k) := by
  have hwrite : (ring.append bytes).writePos =
      Cursor.forward ring.storage.size ring.writePos bytes.length := rfl
  rw [size_storage_append, hwrite, Cursor.forward_forward]

theorem Valid.storage_append_append {ring : ByteRing} (h : ring.Valid) {first second : List UInt8}
    (hfit : (first ++ second).length < ring.storage.size) :
    ((ring.append first).append second).storage = (ring.append (first ++ second)).storage := by
  have hw := h.writePos_lt
  have hw' : (ring.append first).writePos < (ring.append first).storage.size := by
    rw [size_storage_append]
    exact Cursor.forward_lt h.size_pos _ _
  have hlen : (first ++ second).length = first.length + second.length := List.length_append
  apply Array.ext_getElem?
  intro p
  rcases Nat.lt_or_ge p ring.storage.size with hp | hp
  · -- the slot is told by its distance from the first write cursor
    obtain ⟨k, hk, rfl⟩ := Cursor.exists_forward_eq hw hp
    have hsecond : ∀ j < second.length, first.length + j ≠ k →
        Cursor.forward (ring.append first).storage.size (ring.append first).writePos j ≠
          Cursor.forward ring.storage.size ring.writePos k := by
      intro j hj hne heq
      rw [forward_writePos_append] at heq
      exact hne (Cursor.forward_injective hw (by omega) hk heq)
    rcases Nat.lt_or_ge k first.length with hin | hout
    · rw [storage_append_other hw' (by simpa using hp) fun j hj => hsecond j hj (by omega),
        storage_append_written hw (by omega) hin, storage_append_written hw (by omega) (by omega),
        List.getElem?_append_left hin]
    · rcases Nat.lt_or_ge k (first ++ second).length with hin' | hout'
      · have hwritten := storage_append_written (k := k - first.length) hw'
          (by rw [size_storage_append]; omega) (show k - first.length < second.length by omega)
        rw [forward_writePos_append, Nat.add_sub_cancel' hout] at hwritten
        rw [hwritten, storage_append_written hw (by omega) hin', List.getElem?_append_right hout]
      · have hother : ∀ j < k, Cursor.forward ring.storage.size ring.writePos j ≠
            Cursor.forward ring.storage.size ring.writePos k := by
          intro j hj heq
          have := Cursor.forward_injective hw (by omega) hk heq
          omega
        rw [storage_append_other hw' (by simpa using hp) fun j hj => hsecond j hj (by omega),
          storage_append_other hw hp fun j hj => hother j (by omega),
          storage_append_other hw hp fun j hj => hother j (by omega)]
  · rw [Array.getElem?_eq_none (by simpa using hp), Array.getElem?_eq_none (by simpa using hp)]

/-- Bytes added in two lots land where they would in one. -/
theorem Valid.append_append {ring : ByteRing} (h : ring.Valid) {first second : List UInt8}
    (hfit : (first ++ second).length ≤ ring.free) :
    (ring.append first).append second = ring.append (first ++ second) := by
  rw [ByteRing.mk.injEq]
  refine ⟨h.storage_append_append (h.length_lt_size hfit), rfl, ?_, ?_⟩
  · change Cursor.forward (ring.append first).storage.size (ring.append first).writePos
      second.length = Cursor.forward ring.storage.size ring.writePos (first ++ second).length
    rw [forward_writePos_append, List.length_append]
  · change ring.len + first.length + second.length = ring.len + (first ++ second).length
    rw [List.length_append, Nat.add_assoc]

/-- An empty ring at slot 0 of a storage of zeros. -/
def blank (capacity : Nat) : ByteRing :=
  ⟨Array.replicate (capacity + 1) 0, 0, 0, 0⟩

/-- A ring whose contents start at slot 0 and whose spare slots are zeros. -/
def fresh (queue : Fifo) : ByteRing :=
  (blank queue.capacity).append queue.held

theorem capacity_blank (capacity : Nat) : (blank capacity).capacity = capacity := by
  simp [ByteRing.capacity, blank]

theorem valid_blank {capacity : Nat} (h : 1 ≤ capacity) : (blank capacity).Valid := by
  refine ⟨?_, ?_, Nat.zero_le _, ?_⟩
  · simp only [blank, Array.size_replicate]
    omega
  · simp only [blank, Array.size_replicate]
    omega
  · simp [blank, Cursor.forward]

theorem toList_blank {capacity : Nat} (h : 1 ≤ capacity) : (blank capacity).toList = [] :=
  (valid_blank h).toList_eq_nil_iff.2 rfl

theorem free_blank (capacity : Nat) : (blank capacity).free = capacity := by
  rw [free, capacity_blank]
  rfl

theorem valid_fresh {queue : Fifo} (h : queue.Fits) : (fresh queue).Valid :=
  (valid_blank h.pos).append (by rw [free_blank]; exact h.bounded)

theorem fifo_fresh {queue : Fifo} (h : queue.Fits) : (fresh queue).fifo = queue := by
  rw [fresh, (valid_blank h.pos).fifo_append (by rw [free_blank]; exact h.bounded), fifo,
    toList_blank h.pos, capacity_blank]
  rfl

theorem toList_fresh {queue : Fifo} (h : queue.Fits) : (fresh queue).toList = queue.held :=
  congrArg Fifo.held (fifo_fresh h)

/-- Copying two pieces to the front of the storage lays them out as adding them does. -/
theorem filled_eq_fresh {capacity : Nat} {head tail : List UInt8}
    (h : (head ++ tail).length ≤ capacity) :
    filled capacity head tail = fresh ⟨capacity, head ++ tail⟩ := by
  have hwrite := writeRun_append (Array.replicate (capacity + 1) 0) 0 head tail
  rw [Nat.zero_add] at hwrite
  have hroom : min (head ++ tail).length (capacity + 1) = (head ++ tail).length := by omega
  have hend : Cursor.forward (capacity + 1) 0 (head ++ tail).length = (head ++ tail).length := by
    rw [Cursor.forward_eq_add (by omega), Nat.zero_add]
  simp only [filled, fresh, ByteRing.append, blank, Array.size_replicate, Nat.sub_zero, hroom,
    hend, hwrite, List.take_length, List.drop_length, writeRun, Nat.zero_add]
  rw [List.length_append]

theorem ofBytes_eq_fresh (bytes : List UInt8) :
    ofBytes bytes = fresh ⟨max bytes.length 1, bytes⟩ := by
  rw [ofBytes, filled_eq_fresh (by rw [List.append_nil]; omega), List.append_nil]

theorem Valid.realign_eq_fresh {ring : ByteRing} (h : ring.Valid) :
    ring.realign = fresh ring.fifo := by
  have hheld : ring.slices.head ++ ring.slices.tail = ring.toList := rfl
  rw [realign, filled_eq_fresh, hheld]
  · rfl
  · rw [hheld, h.length_toList]
    exact h.len_le

/-! ## Rings laid out from slot 0 -/

/-- A ring that holds `data` from slot 0 on, with zeros in all other slots. -/
structure Packed (capacity : Nat) (data : List UInt8) (ring : ByteRing) : Prop where
  storage_eq : ring.storage.toList = data ++ List.replicate (capacity + 1 - data.length) 0
  readPos_eq : ring.readPos = 0
  writePos_eq : ring.writePos = data.length
  len_eq : ring.len = data.length
  capacity_eq : ring.capacity = capacity
  toList_eq : ring.toList = data

theorem writeRun_replicate (size : Nat) (bytes : List UInt8) (h : bytes.length ≤ size) :
    (writeRun (Array.replicate size 0) 0 bytes).toList =
      bytes ++ List.replicate (size - bytes.length) 0 := by
  apply List.ext_getElem?
  intro i
  rw [Array.getElem?_toList, getElem?_writeRun, List.getElem?_append, Array.size_replicate]
  by_cases hi : i < bytes.length
  · rw [if_pos (by omega), if_pos hi, Nat.sub_zero]
  · rw [if_neg (by omega), if_neg hi, Array.getElem?_replicate, List.getElem?_replicate]
    congr 1
    rw [eq_iff_iff]
    omega

theorem packed_fresh {queue : Fifo} (h : queue.Fits) :
    (fresh queue).Packed queue.capacity queue.held := by
  have hheld : (queue.held ++ []).length ≤ queue.capacity := by
    rw [List.append_nil]
    exact h.bounded
  have hfilled : fresh queue = filled queue.capacity queue.held [] := by
    rw [filled_eq_fresh hheld, List.append_nil]
  refine ⟨?_, rfl, ?_, ?_, congrArg Fifo.capacity (fifo_fresh h), toList_fresh h⟩
  · rw [hfilled]
    exact writeRun_replicate _ _ (Nat.le_succ_of_le h.bounded)
  · rw [hfilled]
    rfl
  · rw [hfilled]
    rfl

/-! ## Building -/

theorem withCapacity_eq (memory : Memory) (capacity : Nat) :
    withCapacity memory capacity =
      if capacity = 0 then .error (.badArgument .capacityNotPositive)
      else (memory.reserve (capacity + 1)).map fun _ => blank capacity := by
  unfold withCapacity
  split
  · rfl
  · cases memory.reserve (capacity + 1) <;> rfl

theorem blank_of_withCapacity {memory : Memory} {capacity : Nat} {ring : ByteRing}
    (h : withCapacity memory capacity = .ok ring) :
    1 ≤ capacity ∧ memory.reserve (capacity + 1) = .ok () ∧ ring = blank capacity := by
  rw [withCapacity_eq] at h
  split at h
  · cases h
  · next hzero =>
    cases hgranted : memory.reserve (capacity + 1) with
    | error fault =>
      rw [hgranted] at h
      cases h
    | ok _ =>
      rw [hgranted] at h
      cases h
      exact ⟨Nat.one_le_iff_ne_zero.2 hzero, rfl, rfl⟩

/-- The queue that a range of `bytes` is made into, or the first reason against it. -/
def planned (memory : Memory) (bytes : List UInt8) (offset length capacity : Nat) :
    Except Fault Fifo :=
  match checkRange bytes.length offset length with
  | .error fault => .error fault
  | .ok () =>
    if capacity < length then .error (.badArgument .capacityBelowLength)
    else if capacity = 0 then .error (.badArgument .capacityNotPositive)
    else
      match memory.reserve (capacity + 1) with
      | .error fault => .error fault
      | .ok () => .ok ⟨capacity, (bytes.drop offset).take length⟩

/-- What a plan that goes through rests on. -/
theorem of_planned {memory : Memory} {bytes : List UInt8} {offset length capacity : Nat}
    {queue : Fifo} (h : planned memory bytes offset length capacity = .ok queue) :
    offset + length ≤ bytes.length ∧ length ≤ capacity ∧ 1 ≤ capacity ∧
      memory.reserve (capacity + 1) = .ok () ∧
      queue = ⟨capacity, (bytes.drop offset).take length⟩ := by
  unfold planned at h
  split at h
  · cases h
  · next hrange =>
    split at h
    · cases h
    · next hbelow =>
      split at h
      · cases h
      · next hzero =>
        split at h
        · cases h
        · next hgranted =>
          cases h
          exact ⟨(checkRange_eq_ok_iff.1 hrange).2, Nat.not_lt.1 hbelow,
            Nat.one_le_iff_ne_zero.2 hzero, hgranted, rfl⟩

theorem fits_of_planned {memory : Memory} {bytes : List UInt8} {offset length capacity : Nat}
    {queue : Fifo} (h : planned memory bytes offset length capacity = .ok queue) :
    queue.Fits ∧ queue = ⟨capacity, (bytes.drop offset).take length⟩ := by
  obtain ⟨-, hle, hpos, -, rfl⟩ := of_planned h
  refine ⟨⟨hpos, ?_⟩, rfl⟩
  simp only [Fifo.Bounded, List.length_take]
  omega

/-- Behind the checks of a plan, whatever lays out the range in a blank ring carries it out. -/
theorem eq_planned_map {memory : Memory} {bytes : List UInt8} {offset length capacity : Nat}
    {lay : ByteRing → Except Fault ByteRing}
    (h : checkRange bytes.length offset length = .ok () → length ≤ capacity → 1 ≤ capacity →
      lay (blank capacity) = .ok (fresh ⟨capacity, (bytes.drop offset).take length⟩)) :
    (do
      checkRange bytes.length offset length
      if capacity < length then throw (.badArgument .capacityBelowLength)
      let ring ← withCapacity memory capacity
      lay ring) = (planned memory bytes offset length capacity).map fresh := by
  unfold planned
  rw [withCapacity_eq]
  cases hrange : checkRange bytes.length offset length with
  | error fault => rfl
  | ok _ =>
    by_cases hbelow : capacity < length
    · simp only [if_pos hbelow]
      rfl
    · by_cases hzero : capacity = 0
      · simp only [if_neg hbelow, if_pos hzero]
        rfl
      · simp only [if_neg hbelow, if_neg hzero]
        cases memory.reserve (capacity + 1) with
        | error fault => rfl
        | ok _ => exact h hrange (Nat.not_lt.1 hbelow) (Nat.one_le_iff_ne_zero.2 hzero)

theorem ofRangeWithCapacity_eq (memory : Memory) (bytes : List UInt8)
    (offset length capacity : Nat) :
    ofRangeWithCapacity memory bytes offset length capacity =
      (planned memory bytes offset length capacity).map fresh := by
  apply eq_planned_map
  intro hrange hle hpos
  have hroom : length ≤ (blank capacity).free := by
    rw [free_blank]
    exact hle
  rw [(valid_blank hpos).pushRange_eq hrange hroom]
  rfl

/-- Two pieces added one after the other make the ring that their bytes make. -/
theorem pushSlice_pushSlice_blank {capacity : Nat} (hpos : 1 ≤ capacity) {head tail : List UInt8}
    (hfit : (head ++ tail).length ≤ capacity) :
    (blank capacity).pushSlice head = (.ok (), (blank capacity).append head) ∧
      ((blank capacity).append head).pushSlice tail =
        (.ok (), fresh ⟨capacity, head ++ tail⟩) := by
  have hblank := valid_blank hpos
  have hfree := free_blank capacity
  have hsum : (head ++ tail).length = head.length + tail.length := List.length_append
  have hhead : head.length ≤ (blank capacity).free := by omega
  refine ⟨hblank.pushSlice_eq hhead, ?_⟩
  rw [(hblank.append hhead).pushSlice_eq, hblank.append_append (by omega), fresh]
  rw [free_append, free_blank]
  omega

theorem Valid.copyRangeWithCapacity_eq {ring : ByteRing} (h : ring.Valid) (memory : Memory)
    (offset length capacity : Nat) :
    ring.copyRangeWithCapacity memory offset length capacity =
      (planned memory ring.toList offset length capacity).map fresh := by
  unfold copyRangeWithCapacity
  rw [← h.length_toList]
  apply eq_planned_map
  intro hrange hle hpos
  rw [h.length_toList] at hrange
  have hpieces : (ring.runs offset length).head ++ (ring.runs offset length).tail =
      (ring.toList.drop offset).take length :=
    h.range_eq (checkRange_eq_ok_iff.1 hrange).2
  have hfit : ((ring.runs offset length).head ++
      (ring.runs offset length).tail).length ≤ capacity := by
    rw [hpieces, List.length_take]
    omega
  obtain ⟨hhead, htail⟩ := pushSlice_pushSlice_blank hpos hfit
  rw [hpieces] at htail
  simp only [hhead, htail]
  rfl

/-! ## Recipes and derivations -/

/-- The queue that a recipe describes. -/
def Recipe.queue? : Recipe → Option Fifo
  | .withCapacity capacity => some ⟨capacity, []⟩
  | .ofBytes bytes => some ⟨max bytes.length 1, bytes⟩
  | .ofBytesWithCapacity bytes capacity => some ⟨capacity, bytes⟩
  | .ofRange bytes offset length => some ⟨max length 1, (bytes.drop offset).take length⟩
  | .ofRangeWithCapacity bytes offset length capacity =>
    some ⟨capacity, (bytes.drop offset).take length⟩
  | .ofLatin1 text => some ⟨max (Text.Latin1.encode text).length 1, Text.Latin1.encode text⟩
  | .ofLatin1WithCapacity text capacity => some ⟨capacity, Text.Latin1.encode text⟩
  | .ofJson text =>
    match jsonRecord.readAll .ok text with
    | .error _ => none
    | .ok (capacity, data) => some ⟨capacity, data⟩

/-- The queue that a ring derived from `source` is to hold. -/
def Derivation.queue (source : Fifo) : Derivation → Fifo
  | .same => source
  | .realign => source
  | .copyRange offset length => ⟨max length 1, (source.held.drop offset).take length⟩
  | .copyRangeWithCapacity offset length capacity =>
    ⟨capacity, (source.held.drop offset).take length⟩

theorem eq_ok_of_mapError {α ε δ : Type} {result : Except ε α} {tell : ε → δ} {value : α}
    (h : result.mapError tell = .ok value) : result = .ok value := by
  cases result with
  | error fault => cases h
  | ok _ =>
    cases h
    rfl

/-- A ring comes from a text exactly where the text gives a capacity and bytes that make it, and
nothing after them. -/
theorem Codec.decode_eq_ok_iff {Rest Failure : Type} {codec : Codec Rest Failure}
    {memory : Memory} {text : String} {ring : ByteRing} :
    codec.decode memory text = .ok ring ↔
      ∃ capacity data rest, codec.read text = .ok ((capacity, data), rest) ∧
        ofBytesWithCapacity memory data capacity = .ok ring ∧ codec.finish rest = .ok () := by
  unfold decode
  constructor
  · intro h
    split at h
    · cases h
    · next capacity data rest hread =>
      split at h
      · cases h
      · next hmade =>
        split at h
        · cases h
        · next hend =>
          cases h
          exact ⟨capacity, data, rest, hread, hmade, hend⟩
  · rintro ⟨capacity, data, rest, hread, hmade, hend⟩
    simp only [hread, hmade, hend]

/-- The fields of a whole text are those that are read from its front. -/
theorem readAll_of_read {text : String} {fields : Nat × List UInt8} {rest : List Char}
    (hread : jsonCodec.read text = .ok (fields, rest)) (hend : jsonCodec.finish rest = .ok ()) :
    jsonRecord.readAll .ok text = .ok fields := by
  rw [jsonCodec_read] at hread
  rw [jsonCodec_finish] at hend
  simp only [Json.Record.readAll, hread]
  split at hend
  · next hblank => exact if_pos hblank
  · cases hend

theorem fits_fifo {ring : ByteRing} (h : ring.Valid) : ring.fifo.Fits := by
  have hsize := h.two_le_size
  refine ⟨?_, h.bounded_fifo⟩
  rw [Fifo.capacity_fifo, capacity]
  omega

theorem fresh_of_planned {memory : Memory} {bytes : List UInt8} {offset length capacity : Nat}
    {ring : ByteRing} (h : (planned memory bytes offset length capacity).map fresh = .ok ring) :
    Fifo.Fits ⟨capacity, (bytes.drop offset).take length⟩ ∧
      ring = fresh ⟨capacity, (bytes.drop offset).take length⟩ := by
  cases hplan : planned memory bytes offset length capacity with
  | error fault =>
    rw [hplan] at h
    cases h
  | ok queue =>
    rw [hplan] at h
    cases h
    obtain ⟨hfits, rfl⟩ := fits_of_planned hplan
    exact ⟨hfits, rfl⟩

theorem fresh_of_ofBytesWithCapacity {memory : Memory} {bytes : List UInt8} {capacity : Nat}
    {ring : ByteRing} (h : ofBytesWithCapacity memory bytes capacity = .ok ring) :
    Fifo.Fits ⟨capacity, bytes⟩ ∧ ring = fresh ⟨capacity, bytes⟩ := by
  rw [ofBytesWithCapacity, ofRangeWithCapacity_eq] at h
  have hfresh := fresh_of_planned h
  rwa [List.drop_zero, List.take_length] at hfresh

theorem fits_ofBytes (bytes : List UInt8) : Fifo.Fits ⟨max bytes.length 1, bytes⟩ :=
  ⟨Nat.le_max_right _ _, Nat.le_max_left _ _⟩

theorem valid_ofBytes (bytes : List UInt8) : (ofBytes bytes).Valid := by
  rw [ofBytes_eq_fresh]
  exact valid_fresh (fits_ofBytes bytes)

theorem packed_ofBytes (bytes : List UInt8) :
    (ofBytes bytes).Packed (max bytes.length 1) bytes := by
  rw [ofBytes_eq_fresh]
  exact packed_fresh (fits_ofBytes bytes)

/-- A ring that is made is the fresh ring of the queue that its recipe describes. -/
theorem fresh_of_make {memory : Memory} {recipe : Recipe} {ring : ByteRing}
    (h : recipe.make memory = .ok ring) :
    ∃ queue, recipe.queue? = some queue ∧ queue.Fits ∧ ring = fresh queue := by
  cases recipe with
  | withCapacity capacity =>
    obtain ⟨hpos, -, rfl⟩ := blank_of_withCapacity (eq_ok_of_mapError h)
    exact ⟨_, rfl, ⟨hpos, Nat.zero_le _⟩, (valid_blank hpos).append_nil.symm⟩
  | ofBytes bytes =>
    cases h
    exact ⟨_, rfl, fits_ofBytes bytes, ofBytes_eq_fresh bytes⟩
  | ofBytesWithCapacity bytes capacity =>
    exact ⟨_, rfl, fresh_of_ofBytesWithCapacity (eq_ok_of_mapError h)⟩
  | ofRange bytes offset length =>
    have hmade := eq_ok_of_mapError h
    rw [ofRange, ofRangeWithCapacity_eq] at hmade
    exact ⟨_, rfl, fresh_of_planned hmade⟩
  | ofRangeWithCapacity bytes offset length capacity =>
    have hmade := eq_ok_of_mapError h
    rw [ofRangeWithCapacity_eq] at hmade
    exact ⟨_, rfl, fresh_of_planned hmade⟩
  | ofLatin1 text =>
    cases h
    exact ⟨_, rfl, fits_ofBytes _, ofBytes_eq_fresh _⟩
  | ofLatin1WithCapacity text capacity =>
    exact ⟨_, rfl, fresh_of_ofBytesWithCapacity (eq_ok_of_mapError h)⟩
  | ofJson text =>
    obtain ⟨capacity, data, rest, hread, hmade, hend⟩ :=
      Codec.decode_eq_ok_iff.1 (eq_ok_of_mapError h)
    refine ⟨⟨capacity, data⟩, ?_, fresh_of_ofBytesWithCapacity hmade⟩
    simp only [Recipe.queue?, readAll_of_read hread hend]

theorem valid_of_make {memory : Memory} {recipe : Recipe} {ring : ByteRing}
    (h : recipe.make memory = .ok ring) : ring.Valid := by
  obtain ⟨queue, -, hfits, rfl⟩ := fresh_of_make h
  exact valid_fresh hfits

/-- Every derived ring but a clone is laid out from slot 0 on. -/
theorem Valid.fresh_of_derive {memory : Memory} {source ring : ByteRing} (h : source.Valid)
    {derivation : Derivation} (hcopy : derivation ≠ .same)
    (hderive : source.derive memory derivation = .ok ring) :
    (derivation.queue source.fifo).Fits ∧ ring = fresh (derivation.queue source.fifo) := by
  cases derivation with
  | same => exact absurd rfl hcopy
  | realign =>
    cases hderive
    exact ⟨fits_fifo h, h.realign_eq_fresh⟩
  | copyRange offset length =>
    have hmade : source.copyRange memory offset length = .ok ring := hderive
    rw [copyRange, h.copyRangeWithCapacity_eq] at hmade
    exact fresh_of_planned hmade
  | copyRangeWithCapacity offset length capacity =>
    have hmade : source.copyRangeWithCapacity memory offset length capacity = .ok ring := hderive
    rw [h.copyRangeWithCapacity_eq] at hmade
    exact fresh_of_planned hmade

/-- A derived ring is valid and holds what its derivation says. -/
theorem Valid.derive {memory : Memory} {source ring : ByteRing} (h : source.Valid)
    {derivation : Derivation} (hderive : source.derive memory derivation = .ok ring) :
    ring.Valid ∧ ring.fifo = derivation.queue source.fifo := by
  by_cases hsame : derivation = .same
  · subst hsame
    cases hderive
    exact ⟨h, rfl⟩
  · obtain ⟨hfits, rfl⟩ := h.fresh_of_derive hsame hderive
    exact ⟨valid_fresh hfits, fifo_fresh hfits⟩

end ByteRing

end CyclicQueue
