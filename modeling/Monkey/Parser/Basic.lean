import Monkey.Parser.Run

/-! # The parser

A parser is a window with the rule that reads its values. It answers requests one at
a time, so that any run of it is a list of requests. -/

namespace Monkey

structure Parser where
  window : Window
  rule : Rule

namespace Parser

/-- A parser over the tokens of a lexer that passes over values. -/
def ofLexer (recovery : Recovery) (lexer : Lexer) : Parser :=
  ⟨.ofLexer recovery lexer, .skip⟩

/-! ## Requests -/

inductive Request where
  | next
  | currentIs (kind : Kind)
  | peekIs (kind : Kind)
  | expect (kind : Kind)
  | skipValue
  | parseProgram
  | errors
  | diagnostics
  | takeDiagnostics
  | lexerDiagnostics
  | takeLexerDiagnostics
  | recovery
  | setRule (rule : Rule)

inductive Reply where
  | silence
  | truth (holds : Bool)
  | outcome (outcome : Outcome)
  | program (program : Program)
  | messages (messages : List String)
  | diagnostics (diagnostics : Diagnostics)
  | recovery (recovery : Recovery)
deriving DecidableEq

def answer (p : Parser) : Request → Reply × Parser
  | .next => (.silence, { p with window := p.window.next })
  | .currentIs kind => (.truth (p.window.current.kind == kind), p)
  | .peekIs kind => (.truth (p.window.peek.kind == kind), p)
  | .expect kind =>
    let met := p.window.expect kind
    (.truth met.1, { p with window := met.2 })
  | .skipValue => (.outcome (.value none), { p with window := p.window.sweep.2 })
  | .parseProgram =>
    let parsed := p.window.parseProgram p.rule
    (.program parsed.1, { p with window := parsed.2 })
  | .errors => (.messages (Diagnostics.messages p.window.diagnostics), p)
  | .diagnostics => (.diagnostics p.window.diagnostics, p)
  | .takeDiagnostics =>
    let taken := p.window.takeDiagnostics
    (.diagnostics taken.1, { p with window := taken.2 })
  | .lexerDiagnostics => (.diagnostics p.window.lexer.diagnostics, p)
  | .takeLexerDiagnostics =>
    let taken := p.window.takeLexerDiagnostics
    (.diagnostics taken.1, { p with window := taken.2 })
  | .recovery => (.recovery p.window.recovery, p)
  | .setRule rule => (.silence, { p with rule })

end Parser

/-! ## Whole texts -/

/-- A text read to its end, with the window that is left. -/
def readProgram (source : String) (file : FileId) (recovery : Recovery) : Program × Window :=
  (Window.ofLexer recovery (.ofText source file)).parseProgram .skip

/-- The diagnostics of a window, those of the lexer first. -/
def Window.allDiagnostics (w : Window) : Diagnostics :=
  w.lexer.diagnostics ++ w.diagnostics

/-- The program of a text and everything that is wrong with it. -/
def parse (source : String) (file : FileId) (recovery : Recovery) : Program × Diagnostics :=
  let read := readProgram source file recovery
  (read.1, read.2.allDiagnostics)

end Monkey
