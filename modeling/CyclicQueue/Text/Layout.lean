/-!
# Values as text, on one line or indented

A value to be shown is a tree of names, fields and items. It is written on one line, or with each
field and item on a line of its own, indented by four blanks for each level and followed by a
comma.
-/

namespace CyclicQueue.Text

/-- A value to be shown. -/
inductive Tree where
  /-- A text as it is. -/
  | atom (text : String)
  /-- A name with its values in parentheses. -/
  | call (name : String) (items : List Tree)
  /-- A name with its fields in braces. -/
  | record (name : String) (fields : List (String × Tree))
  /-- Values in brackets. -/
  | list (items : List Tree)

namespace Tree

def number (n : Nat) : Tree :=
  .atom n.repr

mutual

/-- A tree on one line. -/
def line : Tree → String
  | .atom text => text
  | .call name items => name ++ "(" ++ ", ".intercalate (lines items) ++ ")"
  | .record name fields => name ++ " \x7b " ++ ", ".intercalate (fieldLines fields) ++ " \x7d"
  | .list items => "[" ++ ", ".intercalate (lines items) ++ "]"

/-- Trees on one line each. -/
def lines : List Tree → List String
  | [] => []
  | item :: items => item.line :: lines items

/-- Fields on one line each, as a name, a colon and a value. -/
def fieldLines : List (String × Tree) → List String
  | [] => []
  | (name, value) :: fields => (name ++ ": " ++ value.line) :: fieldLines fields

end

/-- The blanks at the start of a line `depth` levels deep. -/
def indent (depth : Nat) : String :=
  String.ofList (List.replicate (4 * depth) ' ')

/-- Rows of a tree, each on a line of its own `depth` levels deep and followed by a comma, between
two brackets. -/
def block (depth : Nat) (opening : String) (rows : List String) (closing : String) : String :=
  opening ++ "\n" ++ String.join (rows.map fun row => indent (depth + 1) ++ row ++ ",\n") ++
    indent depth ++ closing

mutual

/-- A tree over several lines, `depth` levels deep. -/
def expandedAt (depth : Nat) : Tree → String
  | .atom text => text
  | .call name items => block depth (name ++ "(") (expandedRows depth items) ")"
  | .record name fields => block depth (name ++ " \x7b") (expandedFields depth fields) "\x7d"
  | .list [] => "[]"
  | .list items => block depth "[" (expandedRows depth items) "]"

/-- The items of a tree that is `depth` levels deep. -/
def expandedRows (depth : Nat) : List Tree → List String
  | [] => []
  | item :: items => item.expandedAt (depth + 1) :: expandedRows depth items

/-- The fields of a tree that is `depth` levels deep. -/
def expandedFields (depth : Nat) : List (String × Tree) → List String
  | [] => []
  | (name, value) :: fields =>
    (name ++ ": " ++ value.expandedAt (depth + 1)) :: expandedFields depth fields

end

def expanded (tree : Tree) : String :=
  tree.expandedAt 0

end Tree

end CyclicQueue.Text
