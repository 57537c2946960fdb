import Monkey.Token.Basic

/-! # Programs

A program is a list of `let` and `return` statements. Each node keeps the token that
introduced it, so text, literal and span are read off the tree. -/

namespace Monkey

/-- A name and the token it was read from. -/
structure Identifier where
  token : Token
  value : String
deriving DecidableEq

namespace Identifier

/-- The name that a token spells. -/
def ofToken (token : Token) : Identifier := ⟨token, token.literal⟩

def text (name : Identifier) : String := name.value

def literal (name : Identifier) : String := name.token.literal

def span (name : Identifier) : Span := name.token.span

def outline (name : Identifier) : Outline :=
  .record "Identifier" [("token", name.token.outline), ("value", .quoted name.value)]

end Identifier

inductive Expression where
  | identifier (name : Identifier)
deriving DecidableEq

namespace Expression

def text : Expression → String
  | identifier name => name.text

def literal : Expression → String
  | identifier name => name.literal

def span : Expression → Span
  | identifier name => name.span

def outline : Expression → Outline
  | identifier name => .tuple "Identifier" [name.outline]

end Expression

inductive Statement where
  | letBinding (keyword : Token) (name : Identifier) (value : Option Expression)
  | returning (keyword : Token) (value : Option Expression)
deriving DecidableEq

namespace Statement

def keyword : Statement → Token
  | letBinding keyword _ _ => keyword
  | returning keyword _ => keyword

/-- The text of the keyword. -/
def literal (s : Statement) : String := s.keyword.literal

def text : Statement → String
  | letBinding keyword name (some value) =>
    keyword.literal ++ " " ++ name.text ++ " = " ++ value.text ++ ";"
  | letBinding keyword name none => keyword.literal ++ " " ++ name.text ++ ";"
  | returning keyword (some value) => keyword.literal ++ " " ++ value.text ++ ";"
  | returning keyword none => keyword.literal ++ ";"

/-- From the keyword to the value, or to the last part that is there. -/
def span : Statement → Except FileMismatch Span
  | letBinding keyword _ (some value) => keyword.span.merge value.span
  | letBinding keyword name none => keyword.span.merge name.span
  | returning keyword (some value) => keyword.span.merge value.span
  | returning keyword none => .ok keyword.span

def outline : Statement → Outline
  | letBinding keyword name value =>
    .tuple "Let" [.record "LetStatement"
      [("token", keyword.outline), ("name", name.outline),
        ("value", .optional (value.map Expression.outline))]]
  | returning keyword value =>
    .tuple "Return" [.record "ReturnStatement"
      [("token", keyword.outline), ("return_value", .optional (value.map Expression.outline))]]

end Statement

structure Program where
  statements : Array Statement
deriving DecidableEq

namespace Program

def size (p : Program) : Nat := p.statements.size

def isEmpty (p : Program) : Bool := p.statements.isEmpty

/-- The text of the first keyword; empty for a program without statements. -/
def literal (p : Program) : String :=
  (p.statements[0]?.map Statement.literal).getD ""

/-- One statement per line. -/
def text (p : Program) : String :=
  "\n".intercalate (p.statements.toList.map Statement.text)

def outline (p : Program) : Outline :=
  .record "Program" [("statements", .list (p.statements.toList.map Statement.outline))]

end Program

end Monkey
