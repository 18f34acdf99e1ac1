import CyclicQueue.ByteRing.Codec
import CyclicQueue.Json.Record

/-!
# Rings as JSON records
-/

namespace CyclicQueue.ByteRing

/-- The items of a list in decimal digits, with commas between them. -/
def itemsText : List UInt8 → List Char
  | [] => []
  | [byte] => Nat.toDigits 10 byte.toNat
  | byte :: bytes => Nat.toDigits 10 byte.toNat ++ ',' :: itemsText bytes

/-- The text of a ring with the given capacity and contents. -/
def jsonText (capacity : Nat) (data : List UInt8) : List Char :=
  "\x7b\"capacity\":".toList ++ Nat.toDigits 10 capacity ++ ",\"data\":[".toList ++
    itemsText data ++ "]\x7d".toList

/-- The fields of a ring as far as they have been read. -/
structure Draft where
  capacity : Option Nat
  data : Option (List UInt8)
  deriving DecidableEq, Repr

def jsonRecord : Json.Record Draft (Nat × List UInt8) where
  name := "OwnedRepr"
  fields :=
    [{ name := "capacity"
       isSet := fun draft => draft.capacity.isSome
       reader := Json.size.map fun capacity draft => { draft with capacity := some capacity } },
      { name := "data"
        isSet := fun draft => draft.data.isSome
        reader := (Json.list Json.byte).map fun data draft => { draft with data := some data } }]
  blank := ⟨none, none⟩
  finish
    | ⟨some capacity, some data⟩ => .ok (capacity, data)
    | ⟨none, _⟩ => .error (.missingField "capacity")
    | ⟨some _, none⟩ => .error (.missingField "data")

def jsonCodec : Codec (List Char) Json.ReadFault where
  write capacity data := String.ofList (jsonText capacity data)
  read text := jsonRecord.read text.toList
  finish rest := if (Json.skipBlanks rest).isEmpty then .ok () else .error .malformed
  refuse fault := .mismatch (.refused fault)

theorem jsonCodec_write (capacity : Nat) (data : List UInt8) :
    jsonCodec.write capacity data = String.ofList (jsonText capacity data) := rfl

theorem jsonCodec_read (text : String) : jsonCodec.read text = jsonRecord.read text.toList := rfl

theorem jsonCodec_finish (rest : List Char) :
    jsonCodec.finish rest =
      if (Json.skipBlanks rest).isEmpty then .ok () else .error .malformed := rfl

def toJson (ring : ByteRing) : String :=
  jsonCodec.encode ring

def ofJson (memory : Memory) (text : String) : Except Json.ReadFault ByteRing :=
  jsonCodec.decode memory text

end CyclicQueue.ByteRing
