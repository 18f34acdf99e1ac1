import CyclicQueue.Json.Record

/-!
# What is spelled out is read back

A natural number in decimal digits, a word in quotes and a member of an object are read as they were
written, whatever comes after them. Only a numeral looks at what follows it: a digit, a point or an
exponent would go on with it.
-/

namespace CyclicQueue.Json

/-- A text that does not go on with a numeral before it. -/
def EndsNumeral : List Char → Prop
  | [] => True
  | c :: _ => c.isDigit = false ∧ c ≠ '.' ∧ c ≠ 'e' ∧ c ≠ 'E'

theorem EndsNumeral.takeWhile_eq {rest : List Char} (h : EndsNumeral rest) :
    rest.takeWhile Char.isDigit = [] := by
  cases rest with
  | nil => rfl
  | cons c rest => rw [List.takeWhile_cons_of_neg (Bool.eq_false_iff.1 h.1)]

theorem EndsNumeral.dropWhile_eq {rest : List Char} (h : EndsNumeral rest) :
    rest.dropWhile Char.isDigit = rest := by
  cases rest with
  | nil => rfl
  | cons c rest => rw [List.dropWhile_cons_of_neg (Bool.eq_false_iff.1 h.1)]

theorem isBlank_of_isDigit {c : Char} (h : c.isDigit = true) : isBlank c = false := by
  apply Bool.eq_false_iff.2
  intro hblank
  simp only [isBlank, Bool.or_eq_true, beq_iff_eq] at hblank
  rcases hblank with ((rfl | rfl) | rfl) | rfl <;> cases h

theorem skipBlanks_cons {c : Char} {text : List Char} (h : isBlank c = false) :
    skipBlanks (c :: text) = c :: text :=
  List.dropWhile_cons_of_neg (Bool.eq_false_iff.1 h)

/-! ## Numerals -/

theorem isDigit_of_mem_toDigits {n : Nat} : ∀ c ∈ Nat.toDigits 10 n, c.isDigit = true :=
  fun _ hc => Nat.isDigit_of_mem_toDigits (by decide) (by decide) hc

theorem exists_toDigits_eq_cons (n : Nat) :
    ∃ c digits, Nat.toDigits 10 n = c :: digits ∧ c.isDigit = true := by
  obtain ⟨c, digits, hdigits⟩ := List.exists_cons_of_ne_nil (Nat.toDigits_ne_nil (n := n) (b := 10))
  refine ⟨c, digits, hdigits, isDigit_of_mem_toDigits (n := n) c ?_⟩
  rw [hdigits]
  exact List.mem_cons_self

/-- Only zero is spelled with a zero in front. -/
theorem toDigits_ne_cons_zero {n : Nat} (h : n ≠ 0) (digits : List Char) :
    Nat.toDigits 10 n ≠ '0' :: digits := by
  -- the induction cuts off the last digit, which leaves the first one
  induction n using Nat.strongRecOn generalizing digits with
  | _ n ih =>
    rcases Nat.lt_or_ge n 10 with hlt | hge
    · rw [Nat.toDigits_of_lt_base hlt]
      intro heq
      exact h (Nat.digitChar_eq_zero.1 (List.cons.inj heq).1)
    · obtain ⟨c, front, hfront, -⟩ := exists_toDigits_eq_cons (n / 10)
      rw [Nat.toDigits_of_base_le (by decide) hge, hfront]
      intro heq
      obtain ⟨rfl, -⟩ := List.cons.inj heq
      exact ih (n / 10) (by omega) (by omega) front hfront

theorem readDigits_toDigits (n : Nat) {rest : List Char} (h : EndsNumeral rest) :
    readDigits (Nat.toDigits 10 n ++ rest) = .ok (Nat.toDigits 10 n, rest) := by
  obtain ⟨c, digits, hdigits, -⟩ := exists_toDigits_eq_cons n
  have htaken : (Nat.toDigits 10 n ++ rest).takeWhile Char.isDigit = Nat.toDigits 10 n := by
    rw [List.takeWhile_append_of_pos isDigit_of_mem_toDigits, h.takeWhile_eq, List.append_nil]
  have hleft : (Nat.toDigits 10 n ++ rest).dropWhile Char.isDigit = rest := by
    rw [List.dropWhile_append_of_pos isDigit_of_mem_toDigits, h.dropWhile_eq]
  rw [readDigits, htaken, hleft, hdigits]

theorem readWhole_toDigits (n : Nat) {rest : List Char} (h : EndsNumeral rest) :
    readWhole (Nat.toDigits 10 n ++ rest) = .ok (Nat.toDigits 10 n, rest) := by
  by_cases hzero : n = 0
  · subst hzero
    rw [Nat.toDigits_zero, List.singleton_append, readWhole, h.takeWhile_eq]
    rfl
  · unfold readWhole
    split
    · next text heq =>
      obtain ⟨c, digits, hdigits, -⟩ := exists_toDigits_eq_cons n
      rw [hdigits, List.cons_append] at heq
      obtain ⟨rfl, -⟩ := List.cons.inj heq
      exact absurd hdigits (toDigits_ne_cons_zero hzero digits)
    · exact readDigits_toDigits n h

theorem readFraction_of_ends {rest : List Char} (h : EndsNumeral rest) :
    readFraction rest = .ok ([], rest) := by
  unfold readFraction
  split
  · exact absurd rfl h.2.1
  · rfl

theorem readExponent_of_ends {rest : List Char} (h : EndsNumeral rest) :
    readExponent rest = .ok (none, rest) := by
  unfold readExponent
  split
  · exact absurd rfl h.2.2.1
  · exact absurd rfl h.2.2.2
  · rfl

theorem readNumeral_toDigits (n : Nat) {rest : List Char} (h : EndsNumeral rest) :
    readNumeral (Nat.toDigits 10 n ++ rest) =
      .ok ({ negative := false, whole := Nat.toDigits 10 n, fraction := [], exponent := none },
        rest) := by
  unfold readNumeral
  split
  · next text heq =>
    obtain ⟨c, digits, hdigits, hc⟩ := exists_toDigits_eq_cons n
    rw [hdigits, List.cons_append] at heq
    obtain ⟨rfl, -⟩ := List.cons.inj heq
    cases hc
  · simp only [readUnsigned, readWhole_toDigits n h, readFraction_of_ends h,
      readExponent_of_ends h]

/-- Digits whose value fits 64 bits are all taken. -/
theorem absorb_eq {digits : List Char} {number : Nat}
    (h : Nat.ofDigitChars 10 digits number < Nat.pow 2 64) :
    absorb number digits = (Nat.ofDigitChars 10 digits number, []) := by
  induction digits generalizing number with
  | nil => rw [Nat.ofDigitChars_nil, absorb]
  | cons c digits ih =>
    rw [Nat.ofDigitChars_cons] at h ⊢
    have hnext : number * 10 + digitValue c = 10 * number + (c.toNat - '0'.toNat) := by
      rw [Nat.mul_comm]
      rfl
    -- the digits still to come only make the number larger, so every step is below the limit
    have hle : 10 * number + (c.toNat - '0'.toNat) ≤
        Nat.ofDigitChars 10 digits (10 * number + (c.toNat - '0'.toNat)) := by
      rw [Nat.ofDigitChars_eq_ofDigitChars_zero]
      exact Nat.le_add_right_of_le (Nat.le_mul_of_pos_left _ (Nat.pow_pos (by decide)))
    simp only [absorb, hnext]
    rw [if_pos (Nat.lt_of_le_of_lt hle h)]
    exact ih h

theorem readNumber_toDigits {n : Nat} (hn : n < Nat.pow 2 64) {rest : List Char}
    (h : EndsNumeral rest) :
    readNumber (Nat.toDigits 10 n ++ rest) = .ok (.natural n, rest) := by
  have hvalue : Nat.ofDigitChars 10 (Nat.toDigits 10 n) 0 = n := Nat.ofDigitChars_ten_toDigits
  have habsorb : absorb 0 (Nat.toDigits 10 n) = (n, []) := by
    rw [absorb_eq (by rwa [hvalue]), hvalue]
  rw [readNumber, readNumeral_toDigits n h]
  simp only [Numeral.value?, habsorb]
  rfl

theorem readNatural_toDigits {expected : Expected} {bound n : Nat} (hn : n < bound)
    (hbound : bound ≤ Nat.pow 2 64) {rest : List Char} (h : EndsNumeral rest) :
    readNatural expected bound (Nat.toDigits 10 n ++ rest) = .ok (n, rest) := by
  have hnumber := readNumber_toDigits (Nat.lt_of_lt_of_le hn hbound) h
  obtain ⟨c, digits, hdigits, hc⟩ := exists_toDigits_eq_cons n
  rw [hdigits, List.cons_append] at hnumber ⊢
  rw [readNatural, skipBlanks_cons (isBlank_of_isDigit hc)]
  simp only [hnumber]
  rw [if_pos (Or.inr hc), if_pos hn]

theorem size_run_toDigits {n : Nat} (hn : n < Nat.pow 2 64) {rest : List Char}
    (h : EndsNumeral rest) : size.run (Nat.toDigits 10 n ++ rest) = .ok (n, rest) :=
  readNatural_toDigits hn (Nat.le_refl _) h


theorem Reader.run_map {α β : Type} {reader : Reader α} {value : α} {text rest : List Char}
    (f : α → β) (h : reader.run text = .ok (value, rest)) :
    (reader.map f).run text = .ok (f value, rest) := by
  simp only [map, h]

theorem byte_run_toDigits (value : UInt8) {rest : List Char} (h : EndsNumeral rest) :
    byte.run (Nat.toDigits 10 value.toNat ++ rest) = .ok (value, rest) := by
  have hnatural : readNatural .byte 256 (Nat.toDigits 10 value.toNat ++ rest) =
      .ok (value.toNat, rest) := readNatural_toDigits value.toNat_lt (by decide) h
  rw [byte, Reader.run_map UInt8.ofNat hnatural, UInt8.ofNat_toNat]

/-! ## Words and lists -/

/-- A character that stands between quotes as it is. -/
def isPlain (c : Char) : Bool :=
  c != '"' && c != '\\' && 32 ≤ c.toNat

theorem readString_plain (valued : Bool) {word : List Char} (h : word.all isPlain = true)
    (rest : List Char) : readString valued (word ++ '"' :: rest) = .ok (word, rest) := by
  induction word with
  | nil => rw [List.nil_append, readString]
  | cons c word ih =>
    obtain ⟨hfirst, hlater⟩ := (Bool.and_eq_true _ _).mp h
    simp only [isPlain, Bool.and_eq_true, bne_iff_ne, decide_eq_true_eq] at hfirst
    obtain ⟨⟨hquote, hescape⟩, hprintable⟩ := hfirst
    rw [List.cons_append, readString]
    · rw [if_neg (Nat.not_lt.2 hprintable), ih hlater]
    · exact hquote
    · exact hescape

section

variable {α : Type} {item : Reader α} {value : α} {values : List α} {text left rest : List Char}

theorem readItems_close : readItems item (']' :: rest) = .ok ([], rest) := by
  have hblanks : skipBlanks (']' :: rest) = ']' :: rest := skipBlanks_cons rfl
  rw [readItems]
  split
  · next hnext =>
    cases hblanks.symm.trans hnext
    rfl
  · next hnext => cases hblanks.symm.trans hnext
  · next hclose hcomma => exact absurd hblanks (hclose rest)

theorem readItems_comma (hitem : item.run text = .ok (value, left))
    (hitems : readItems item left = .ok (values, rest)) :
    readItems item (',' :: text) = .ok (value :: values, rest) := by
  have hblanks : skipBlanks (',' :: text) = ',' :: text := skipBlanks_cons rfl
  rw [readItems]
  split
  · next hnext => cases hblanks.symm.trans hnext
  · next hnext =>
    cases hblanks.symm.trans hnext
    split
    · next fault hfault => cases hitem.symm.trans hfault
    · next first behind hfirst =>
      cases hitem.symm.trans hfirst
      rw [hitems]
  · next hclose hcomma => exact absurd hblanks (hcomma text)

theorem readList_nil : readList item ('[' :: ']' :: rest) = .ok ([], rest) := rfl

/-- A first item that starts neither with a blank nor with the closing bracket is read in full, and
then the items after it. -/
theorem readList_cons {c : Char} (hblank : isBlank c = false) (hclose : c ≠ ']')
    (hitem : item.run (c :: text) = .ok (value, left))
    (hitems : readItems item left = .ok (values, rest)) :
    readList item ('[' :: c :: text) = .ok (value :: values, rest) := by
  have hblanks : skipBlanks ('[' :: c :: text) = '[' :: c :: text := skipBlanks_cons rfl
  simp only [readList, hblanks, skipBlanks_cons hblank]
  split
  · next heq => cases heq
  · next heq => exact absurd (List.cons.inj heq).1 hclose
  · simp only [hitem, hitems]

end

/-! ## Members -/

namespace Record

variable {δ α : Type} {record : Record δ α} {draft draft' : δ} {text rest : List Char}

/-- A member is read by the reader of the field that it names. -/
theorem readMember_eq {name : String} {field : Field δ} {set : δ → δ}
    (hname : name.toList.all isPlain = true)
    (hfield : record.fields.find? (fun field => field.name == name) = some field)
    (hset : field.isSet draft = false) (hvalue : field.reader.run text = .ok (set, rest)) :
    record.readMember draft (name.toList ++ '"' :: ':' :: text) = .ok (set draft, rest) := by
  have hcolon : readColon (':' :: text) = .ok text := by
    rw [readColon, skipBlanks_cons rfl]
    rfl
  rw [readMember, readString_plain true hname]
  simp only [String.ofList_toList, readNamed, hfield, hset, hcolon, hvalue]
  rfl

theorem readMembers_of_last (h : record.readMember draft text = .ok (draft', '}' :: rest)) :
    record.readMembers draft text = record.close draft' rest := by
  have hblanks : skipBlanks ('}' :: rest) = '}' :: rest := skipBlanks_cons rfl
  rw [readMembers]
  split
  · next fault hmember => cases h.symm.trans hmember
  · next last left hmember =>
    cases h.symm.trans hmember
    split
    · next hnext =>
      cases hblanks.symm.trans hnext
      rfl
    · next hnext => cases hblanks.symm.trans hnext
    · next hlast hcomma => exact absurd hblanks (hlast rest)

theorem readMembers_of_next (h : record.readMember draft text = .ok (draft', ',' :: '"' :: rest)) :
    record.readMembers draft text = record.readMembers draft' rest := by
  have hblanks : skipBlanks (',' :: '"' :: rest) = ',' :: '"' :: rest := skipBlanks_cons rfl
  have hblanks' : skipBlanks ('"' :: rest) = '"' :: rest := skipBlanks_cons rfl
  rw [readMembers]
  split
  · next fault hmember => cases h.symm.trans hmember
  · next last left hmember =>
    cases h.symm.trans hmember
    split
    · next hnext => cases hblanks.symm.trans hnext
    · next hnext =>
      cases hblanks.symm.trans hnext
      split
      · next hname =>
        cases hblanks'.symm.trans hname
        rfl
      · next hquote => exact absurd hblanks' (hquote rest)
    · next hlast hcomma => exact absurd hblanks (hcomma _)

end Record

end CyclicQueue.Json
