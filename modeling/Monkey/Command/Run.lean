import Monkey.Command.Log
import Monkey.Command.Options
import Monkey.Diagnostic.Snippet
import Monkey.Parser.Basic
import Monkey.Source.Files
import Monkey.Text.Column

/-! # Runs

What a run writes and how it ends, as a function of its options, the files it may
read and its input. -/

namespace Monkey.Command

/-- What has been written so far. -/
structure Console where
  out : String
  err : String

namespace Console

def empty : Console := ⟨"", ""⟩

def append (a b : Console) : Console := ⟨a.out ++ b.out, a.err ++ b.err⟩

end Console

/-- Why a run failed. -/
inductive Failure where
  | unreadable (path : String) (error : ReadError)
  | badInput (error : ReadError)
  | diagnostics (count : Nat)
  | layout (error : LayoutError)

def Failure.message : Failure → String
  | unreadable path error => "could not read " ++ path ++ ": " ++ error.message
  | badInput error => error.message
  | diagnostics count => toString count ++ " error(s) found"
  | layout error => error.message

/-- What a run has written and whether it failed. -/
structure Run where
  console : Console
  failure : Option Failure

/-- What a finished run has written, and its exit status. -/
structure Report where
  code : Nat
  out : String
  err : String
deriving DecidableEq

/-- A failure is written last and gives the status one. -/
def Run.report (run : Run) : Report :=
  match run.failure with
  | none => ⟨0, run.console.out, run.console.err⟩
  | some failure => ⟨1, run.console.out, run.console.err ++ "error: " ++ failure.message ++ "\n"⟩

/-! ## Diagnostics -/

/-- The rendered diagnostics, each with an empty line behind it. -/
def diagnosticsText (cache : SourceCache) (colored : Bool) (ds : Diagnostics) :
    Except LayoutError String :=
  (ds.toList.mapM (Diagnostic.render cache colored)).map fun texts =>
    String.join (texts.map (· ++ "\n"))

/-- Writes a text and the diagnostics of a source; a file fails when it has any. -/
def finish (options : Options) (cache : SourceCache) (out : String) (log : List LogEntry)
    (ds : Diagnostics) (failure : Option Failure) : Run :=
  let logged := logText options.verbosity log
  match diagnosticsText cache options.colored ds with
  | .error error => ⟨⟨out, logged⟩, some (.layout error)⟩
  | .ok text => ⟨⟨out, logged ++ text⟩, failure⟩

def failureOf (ds : Diagnostics) : Option Failure :=
  if ds.isEmpty then none else some (.diagnostics ds.size)

/-! ## Files -/

/-- The row of a token in a listing. -/
def tokenRow (token : Token) : String :=
  "  " ++ Text.padLeft 4 ' ' (toString token.span.start.line) ++ ":" ++
    Text.padRight 3 ' ' (toString token.span.start.column) ++ "  " ++
    Text.padRight 8 ' ' token.kind.text ++ "  " ++ Text.quote token.literal ++ "\n"

def tokenListing (tokens : Array Token) : String :=
  String.join (tokens.toList.map tokenRow) ++ "\nTotal: " ++ toString tokens.size ++ " tokens\n"

def runLex (options : Options) (path source : String) : Run :=
  let (file, cache) := SourceCache.empty.add path source
  let (tokens, ds) := tokenize source file
  finish options cache (tokenListing tokens) (tokens.toList.map (.event ∘ .token)) ds (failureOf ds)

/-- The program, and its outline if it is asked for. -/
def programText (program : Program) (tree : Bool) : String :=
  program.text ++ "\n" ++ if tree then "\n" ++ program.outline.pretty ++ "\n" else ""

def runParse (options : Options) (path source : String) (recovery : Recovery) (tree : Bool) :
    Run :=
  let (file, cache) := SourceCache.empty.add path source
  let (program, window) := readProgram source file recovery
  let ds := window.allDiagnostics
  let log := window.journal.reverse.map .event ++ [.parsed path recovery program.size]
  finish options cache (programText program tree) log ds (failureOf ds)

/-- Runs on the text of a file, or fails because it cannot be read. -/
def runFile (options : Options) (path : String) (task : FileTask)
    (text : Except ReadError String) : Run :=
  match text, task with
  | .error error, _ => ⟨.empty, some (.unreadable path error)⟩
  | .ok source, .lex => runLex options path source
  | .ok source, .parse recovery tree => runParse options path source recovery tree

/-! ## The interactive loop -/

def prompt : String := ">> "

/-- The kind and the text of a token, as a pair. -/
def tokenPair (token : Token) : String :=
  (Outline.tuple "" [.atom token.kind.name, .quoted token.literal]).compact ++ "\n"

/-- Answers one line. Each line is a source of its own. -/
def runLine (options : Options) (tokens : Bool) (recovery : Recovery) (line : String) :
    Run :=
  let (file, cache) := SourceCache.empty.add "<repl>" line
  if tokens then
    let (all, ds) := tokenize line file
    let shown := all.toList.filter (!·.isEof)
    finish options cache (String.join (shown.map tokenPair)) (all.toList.map (.event ∘ .token)) ds
      none
  else
    let (program, window) := readProgram line file recovery
    let out := if program.isEmpty then "" else program.text ++ "\n"
    finish options cache out (window.journal.reverse.map .event) window.allDiagnostics none

/-- What is written when the lines have ended. -/
def farewell : String := "\n"

/-- Answers lines until they end or one cannot be answered. -/
def runLinesFrom (options : Options) (tokens : Bool) (recovery : Recovery) (written : Console) :
    List (Except ReadError String) → Run
  | [] => ⟨written.append ⟨prompt ++ farewell, ""⟩, none⟩
  | .error error :: _ => ⟨written.append ⟨prompt, ""⟩, some (.badInput error)⟩
  | .ok line :: rest =>
    let answer := runLine options tokens recovery line
    let written := (written.append ⟨prompt, ""⟩).append answer.console
    match answer.failure with
    | some failure => ⟨written, some failure⟩
    | none => runLinesFrom options tokens recovery written rest

/-- Cuts bytes behind each line feed. -/
def byteLines (bytes : ByteArray) : List ByteArray :=
  let (lines, last) := bytes.toList.foldl
    (fun (lines, line) byte =>
      if byte = 10 then (lines.push (line.push byte), ByteArray.empty)
      else (lines, line.push byte))
    ((#[], ByteArray.empty) : Array ByteArray × ByteArray)
  if last.isEmpty then lines.toList else (lines.push last).toList

def runLines (options : Options) (tokens : Bool) (recovery : Recovery) (input : ByteArray) : Run :=
  runLinesFrom options tokens recovery .empty ((byteLines input).map decodeText)

/-! ## Whole runs -/

def versionText : String := "monkey 0.1.0\n"

/-- Runs with options that are understood. -/
def runOptions (options : Options) (files : Files) (input : ByteArray) : Run :=
  match options.action with
  | .version => ⟨⟨versionText, ""⟩, none⟩
  | .file path task => runFile options path task (files.read path)
  | .repl tokens recovery => runLines options tokens recovery input

/-- A run with the given arguments; a command line that cannot be read starts none. -/
def run (arguments : List String) (files : Files) (input : ByteArray) :
    Except UsageError Report :=
  (Options.ofArguments arguments).map fun options => (runOptions options files input).report

end Monkey.Command
