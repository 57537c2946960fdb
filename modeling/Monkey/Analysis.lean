import Monkey.Outline
import Monkey.Parser.Basic
import Monkey.Source.Files

/-! # Analyses

An analysis is all that is known of one text: its tokens, its program and everything
that is wrong with it. Two expectations are checked on it, that there is nothing
wrong and that there is something. -/

namespace Monkey

structure Analysis where
  tokens : Array Token
  program : Program
  diagnostics : Diagnostics

/-- Why a text is not what it was expected to be. -/
inductive ExpectationFailure where
  | unexpectedErrors (messages : List String)
  | unexpectedSuccess (program : Program)

def ExpectationFailure.message : ExpectationFailure → String
  | unexpectedErrors messages =>
    "Expected source to parse, but got errors:\n" ++
      (Outline.list (messages.map Outline.quoted)).pretty
  | unexpectedSuccess program =>
    "Expected source to fail parsing, but it succeeded with:\n" ++ program.text

namespace Analysis

/-- The tokens come from a reading of their own, whose diagnostics are those that
parsing finds again. -/
def ofText (source : String) (recovery : Recovery) : Analysis :=
  let parsed := parse source 0 recovery
  ⟨(tokenize source 0).1, parsed.1, parsed.2⟩

/-- The analysis of a file, if it can be read. -/
def ofFile (files : Files) (path : String) : Except ReadError Analysis :=
  (files.read path).map fun source => ofText source .skipToken

def succeeds (a : Analysis) : Bool := a.diagnostics.isEmpty

def statementLiterals (a : Analysis) : List String :=
  a.program.statements.toList.map Statement.literal

end Analysis

/-- The program of a text that has nothing wrong with it. -/
def expectProgram (source : String) : Except ExpectationFailure Program :=
  let analysis := Analysis.ofText source .skipToken
  if analysis.succeeds then .ok analysis.program
  else .error (.unexpectedErrors (Diagnostics.messages analysis.diagnostics))

/-- The diagnostics of a text that has something wrong with it. -/
def expectDiagnostics (source : String) : Except ExpectationFailure Diagnostics :=
  let analysis := Analysis.ofText source .skipToken
  if analysis.succeeds then .error (.unexpectedSuccess analysis.program)
  else .ok analysis.diagnostics

end Monkey
