import CyclicQueue.Json.Record
import CyclicQueue.SlotTracker.Text

/-!
# Options as records
-/

namespace CyclicQueue.SlotTracker.Options

def toJson (options : Options) : String :=
  "\x7b\"reset_on_zero\":" ++ flagText options.resetOnZero ++ "\x7d"

/-- The record of options. The draft is the choice, if it has been read. -/
def jsonRecord : Json.Record (Option Bool) Options where
  name := "CircularIndexOptions"
  fields :=
    [{ name := "reset_on_zero"
       isSet := Option.isSome
       reader := Json.flag.map fun choice _ => some choice }]
  blank := none
  finish
    | some resetOnZero => .ok { resetOnZero }
    | none => .error (.missingField "reset_on_zero")

def ofJson (text : String) : Except Json.ReadFault Options :=
  jsonRecord.readAll .ok text

end CyclicQueue.SlotTracker.Options
