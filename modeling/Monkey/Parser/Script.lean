import Monkey.Parser.Window

/-! # Rules for expressions

How a value is read is open: a rule looks at the window and answers with a script of
moves. A script sees the window again after each move, so that it can decide what to
do next, and it ends after finitely many moves whatever it sees. -/

namespace Monkey

/-- How reading a value ended: with an expression, with nothing that is worth
keeping, or by giving up the statement. -/
inductive Outcome where
  | value (expression : Option Expression)
  | abandoned
deriving DecidableEq

inductive Script where
  | done (outcome : Outcome)
  | next (rest : Window → Script)
  | expect (kind : Kind) (rest : Bool → Window → Script)
  | sweep (rest : Array Token → Window → Script)
  | takeDiagnostics (rest : Diagnostics → Window → Script)
  | takeLexerDiagnostics (rest : Diagnostics → Window → Script)
  /-- Reads a whole program from the same window, with the same rule. -/
  | parseProgram (rest : Program → Window → Script)

/-- A rule is asked with the first token of the value as the current one. -/
abbrev Rule := Window → Script

namespace Rule

/-- The name that the current token spells, if it is an identifier. -/
def currentName? (w : Window) : Option Expression :=
  if w.current.kind = .ident then some (.identifier (.ofToken w.current)) else none

/-- Passes over the value up to the semicolon and keeps nothing. -/
def skip : Rule := fun _ => .sweep fun _ _ => .done (.value none)

/-- Keeps nothing and stays. -/
def nothing : Rule := fun _ => .done (.value none)

/-- Gives up and stays. -/
def refuse : Rule := fun _ => .done .abandoned

/-- A name stands for itself; any other value is passed over. -/
def name : Rule := fun w =>
  match currentName? w with
  | some expression => .done (.value (some expression))
  | none => skip w

/-- One token and a semicolon, which only the end of the text replaces. -/
def single : Rule := fun w =>
  if w.peek.kind = .eof then .done (.value (currentName? w))
  else .expect .semicolon fun met _ =>
    .done (if met then .value (currentName? w) else .abandoned)

/-- Takes the current token for a name, whatever its kind. -/
def any : Rule := fun w => .done (.value (some (.identifier (.ofToken w.current))))

/-- The last name before the semicolon. -/
def last : Rule := fun _ => .sweep fun passed _ =>
  .done (.value ((passed.toList.filter (·.kind == .ident)).getLast?.map
    (.identifier ∘ .ofToken)))

/-- A name in parentheses; any value that opens with no parenthesis is passed over. -/
def parenthesized : Rule := fun w =>
  if w.current.kind = .lparen then
    .expect .ident fun named inner =>
      if named then
        .expect .rparen fun closed _ =>
          .done (if closed then .value (some (.identifier (.ofToken inner.current)))
            else .abandoned)
      else .done .abandoned
  else skip w

/-- The name of the last binding of a program. -/
def lastName? (program : Program) : Option Identifier :=
  (program.statements.toList.filterMap fun
    | .letBinding _ name _ => some name
    | .returning _ _ => none).getLast?

/-- Behind a brace stands a program, and its last name is the value; any other value
is passed over. -/
def nested : Rule := fun w =>
  if w.current.kind = .lbrace then
    .next fun _ => .parseProgram fun program _ =>
      .done (.value ((lastName? program).map .identifier))
  else skip w

end Rule

/-- The rules above, as a closed set. -/
inductive StandardRule where
  | skip
  | nothing
  | refuse
  | name
  | single
  | any
  | last
  | parenthesized
  | nested
deriving DecidableEq

def StandardRule.rule : StandardRule → Rule
  | skip => .skip
  | nothing => .nothing
  | refuse => .refuse
  | name => .name
  | single => .single
  | any => .any
  | last => .last
  | parenthesized => .parenthesized
  | nested => .nested

end Monkey
