import CyclicQueue.Decimal.Style
import CyclicQueue.Fault
import CyclicQueue.Text.Escape

/-!
# Why a text is no record

A text may end early, it may not be well formed, or it may be well formed so far and hold something
that the record does not admit. Only the last has a wording of its own.
-/

namespace CyclicQueue.Json

/-- A number as it is spelled: a natural number, minus a positive one, or anything else. -/
inductive Number where
  | natural (n : Nat)
  | minus (n : Nat)
  | float (value : Float)
  deriving DecidableEq, Repr

/-- What stands in a text. -/
inductive Found where
  | null
  | flag (value : Bool)
  | number (value : Number)
  | text (value : String)
  | list
  | object
  deriving DecidableEq, Repr

/-- What has to stand in a text. -/
inductive Expected where
  | size
  | byte
  | list
  | flag
  | record (name : String)
  deriving DecidableEq, Repr

/-- What a record does not admit. -/
inductive Mismatch where
  | wrongKind (found : Found) (expected : Expected)
  | outOfRange (value : Int) (expected : Expected)
  | repeatedField (name : String)
  | missingField (name : String)
  /-- The list form of a record stops before its last field. -/
  | tooShort (count : Nat) (record : String) (fields : Nat)
  | refused (fault : Fault)
  deriving DecidableEq, Repr

/-- Why a text is no record. -/
inductive ReadFault where
  | endsEarly
  | malformed
  | mismatch (cause : Mismatch)
  deriving DecidableEq, Repr

/-- Numbers that are no integers have no exponent where their first digit stands for a power of
ten from -5 to 15. -/
def floatStyle : Decimal.Style where
  leastPositional := -5
  greatestPositional := 15

/-- A word between backticks. -/
def ticked (word : String) : String :=
  "\x60" ++ word ++ "\x60"

def Found.message : Found → String
  | .null => "null"
  | .flag true => "boolean " ++ ticked "true"
  | .flag false => "boolean " ++ ticked "false"
  | .number (.natural n) => "integer " ++ ticked n.repr
  | .number (.minus n) => "integer " ++ ticked ("-" ++ n.repr)
  | .number (.float value) => "floating point " ++ ticked (floatStyle.writeFloat value)
  | .text value => "string " ++ Text.quoted value
  | .list => "sequence"
  | .object => "map"

def Expected.message : Expected → String
  | .size => "usize"
  | .byte => "u8"
  | .list => "a sequence"
  | .flag => "a boolean"
  | .record name => "struct " ++ name

/-- A number of elements in words. -/
def elements (count : Nat) : String :=
  count.repr ++ if count = 1 then " element" else " elements"

def Mismatch.message : Mismatch → String
  | .wrongKind found expected =>
    "invalid type: " ++ found.message ++ ", expected " ++ expected.message
  | .outOfRange value expected =>
    "invalid value: integer " ++ ticked (toString value) ++ ", expected " ++ expected.message
  | .repeatedField name => "duplicate field " ++ ticked name
  | .missingField name => "missing field " ++ ticked name
  | .tooShort count record fields =>
    "invalid length " ++ count.repr ++ ", expected struct " ++ record ++ " with " ++
      elements fields
  | .refused fault => fault.message

end CyclicQueue.Json
