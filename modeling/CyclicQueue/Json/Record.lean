import CyclicQueue.Json.Skip
import CyclicQueue.Json.Value

/-!
# Reading a record

A record is written as an object with its fields in any order, or as a list of its fields in order.
Reading goes from left to right and stops at the first fault: a field is refused when its name is
met again, the fields that are missing are told once the object is closed, and the record is made
before anything after it is looked at.
-/

namespace CyclicQueue.Json

/-- A field of a record that is read into drafts of type `δ`. -/
structure Field (δ : Type) where
  name : String
  /-- Whether a draft has the field. -/
  isSet : δ → Bool
  /-- Reads the value and gives it to a draft. -/
  reader : Reader (δ → δ)

/-- A record: its name, its fields in order, and how a complete draft becomes a value. -/
structure Record (δ α : Type) where
  name : String
  fields : List (Field δ)
  blank : δ
  finish : δ → Except Mismatch α

namespace Record

variable {δ α : Type} (record : Record δ α)

def close (draft : δ) (rest : List Char) : Scanned α :=
  match record.finish draft with
  | .error cause => .error (.mismatch cause)
  | .ok value => .ok (value, rest)

/-! ## The object form -/

/-- Reads the value of the field of the given name into a draft, or passes over it. -/
def readNamed (draft : δ) (name : String) (text : List Char) : Scanned δ :=
  match record.fields.find? fun field => field.name == name with
  | none =>
    match readColon text with
    | .error fault => .error fault
    | .ok text =>
      match skipValue text with
      | .error fault => .error fault
      | .ok rest => .ok (draft, rest)
  | some field =>
    if field.isSet draft then .error (.mismatch (.repeatedField name))
    else
      match readColon text with
      | .error fault => .error fault
      | .ok text =>
        match field.reader.run text with
        | .error fault => .error fault
        | .ok (set, rest) => .ok (set draft, rest)

/-- Reads a name, from after its opening quote on, and the value of that field. -/
def readMember (draft : δ) (text : List Char) : Scanned δ :=
  match readString true text with
  | .error fault => .error fault
  | .ok (name, text) => record.readNamed draft (String.ofList name) text

theorem length_readNamed_lt {draft new : δ} {name : String} {text rest : List Char}
    (h : record.readNamed draft name text = .ok (new, rest)) : rest.length < text.length := by
  unfold readNamed at h
  split at h
  · split at h
    · simp at h
    · next hc =>
      have := length_readColon_lt hc
      split at h
      · simp at h
      · next hv =>
        cases h
        have := length_skipWithin_lt hv
        omega
  · split at h
    · simp at h
    · split at h
      · simp at h
      · next hc =>
        have := length_readColon_lt hc
        split at h
        · simp at h
        · next hr =>
          cases h
          have := Reader.shorter _ hr
          omega

theorem length_readMember_lt {draft new : δ} {text rest : List Char}
    (h : record.readMember draft text = .ok (new, rest)) : rest.length < text.length := by
  unfold readMember at h
  split at h
  · simp at h
  · next hs =>
    have := length_readString_lt hs
    have := record.length_readNamed_lt h
    omega

/-- Reads the members of an object from after the opening quote of a name on. -/
def readMembers (draft : δ) (text : List Char) : Scanned α :=
  match _member : record.readMember draft text with
  | .error fault => .error fault
  | .ok (draft, text) =>
    match _next : skipBlanks text with
    | '}' :: rest => record.close draft rest
    | ',' :: text =>
      match _name : skipBlanks text with
      | '"' :: text => readMembers draft text
      | text => .error (stopsAt text)
    | text => .error (stopsAt text)
termination_by text.length
decreasing_by
  have := record.length_readMember_lt _member
  have := length_lt_of_skipBlanks _next
  have := length_lt_of_skipBlanks _name
  omega

/-- Reads the object form from after its opening bracket on. -/
def readObject (text : List Char) : Scanned α :=
  match skipBlanks text with
  | '}' :: rest => record.close record.blank rest
  | '"' :: text => record.readMembers record.blank text
  | text => .error (stopsAt text)

/-! ## The list form -/

/-- Reads the closing bracket of the list form. -/
def readListEnd (draft : δ) (text : List Char) : Scanned α :=
  match record.finish draft with
  | .error cause => .error (.mismatch cause)
  | .ok value =>
    match skipBlanks text with
    | ']' :: rest => .ok (value, rest)
    | text => .error (stopsAt text)

/-- Reads the fields that follow the first `count` ones of the list form. -/
def readFields (count : Nat) (draft : δ) : List (Field δ) → List Char → Scanned α
  | [], text => record.readListEnd draft text
  | field :: fields, text =>
    match skipBlanks text with
    | ']' :: _ => .error (.mismatch (.tooShort count record.name record.fields.length))
    | ',' :: text =>
      match field.reader.run text with
      | .error fault => .error fault
      | .ok (set, text) => readFields (count + 1) (set draft) fields text
    | text => .error (stopsAt text)

/-- Reads the list form from after its opening bracket on. -/
def readListForm (text : List Char) : Scanned α :=
  match record.fields, skipBlanks text with
  | [], text => record.readListEnd record.blank text
  | _ :: _, [] => .error .endsEarly
  | _ :: _, ']' :: _ => .error (.mismatch (.tooShort 0 record.name record.fields.length))
  | field :: fields, text =>
    match field.reader.run text with
    | .error fault => .error fault
    | .ok (set, text) => record.readFields 1 (set record.blank) fields text

/-! ## Either form -/

def read (text : List Char) : Scanned α :=
  match skipBlanks text with
  | [] => .error .endsEarly
  | '{' :: text => record.readObject text
  | '[' :: text => record.readListForm text
  | text => .error (unexpected (.record record.name) text)

/-- Reads a record that is the whole text, and makes something of it before the end of the text is
looked at. -/
def readAll {β : Type} (make : α → Except Mismatch β) (text : String) : Except ReadFault β :=
  match record.read text.toList with
  | .error fault => .error fault
  | .ok (value, rest) =>
    match make value with
    | .error cause => .error (.mismatch cause)
    | .ok made => if (skipBlanks rest).isEmpty then .ok made else .error .malformed

end Record

end CyclicQueue.Json
