import Monkey.Text.Column
import Monkey.Text.Quoted

/-! # Outlines of values

An outline shows how a value is built: named records and tuples, lists, and atoms.
It is written on one line, or with one part per line and four columns of indent per
level. -/

namespace Monkey

inductive Outline where
  | atom (text : String)
  | record (name : String) (fields : List (String × Outline))
  | tuple (name : String) (items : List Outline)
  | list (items : List Outline)

namespace Outline

def number (n : Nat) : Outline := .atom (toString n)

def quoted (s : String) : Outline := .atom (Text.quote s)

/-- An optional value: `Some` around it, or `None`. -/
def optional : Option Outline → Outline
  | none => .atom "None"
  | some value => .tuple "Some" [value]

mutual

/-- The outline on one line. -/
def compact : Outline → String
  | .atom text => text
  | .record name fields =>
    name ++ " \x7b " ++ ", ".intercalate (compactFields fields) ++ " \x7d"
  | .tuple name items => name ++ "(" ++ ", ".intercalate (compactItems items) ++ ")"
  | .list items => "[" ++ ", ".intercalate (compactItems items) ++ "]"

def compactFields : List (String × Outline) → List String
  | [] => []
  | (name, value) :: rest => (name ++ ": " ++ compact value) :: compactFields rest

def compactItems : List Outline → List String
  | [] => []
  | item :: rest => compact item :: compactItems rest

end

/-- The margin of a nesting depth. -/
def margin (depth : Nat) : String := Text.replicate (4 * depth) ' '

/-- Parts one level inside an opening and a closing mark, each on a line that ends
in a comma. -/
def block (depth : Nat) (opening : String) (parts : List String) (closing : String) : String :=
  opening ++ "\n" ++ String.join (parts.map fun part => margin (depth + 1) ++ part ++ ",\n") ++
    margin depth ++ closing

mutual

/-- The outline with each part on its own line; `depth` is the number of levels
around it. A list without items stays on one line. -/
def indented (depth : Nat) : Outline → String
  | .atom text => text
  | .record name fields => block depth (name ++ " \x7b") (indentedFields (depth + 1) fields) "\x7d"
  | .tuple name items => block depth (name ++ "(") (indentedItems (depth + 1) items) ")"
  | .list [] => "[]"
  | .list items => block depth "[" (indentedItems (depth + 1) items) "]"

def indentedFields (depth : Nat) : List (String × Outline) → List String
  | [] => []
  | (name, value) :: rest => (name ++ ": " ++ indented depth value) :: indentedFields depth rest

def indentedItems (depth : Nat) : List Outline → List String
  | [] => []
  | item :: rest => indented depth item :: indentedItems depth rest

end

def pretty (outline : Outline) : String := outline.indented 0

end Outline

end Monkey
