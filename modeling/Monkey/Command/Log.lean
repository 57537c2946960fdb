import Monkey.Parser.Window
import Monkey.Text.Column
import Monkey.Text.Quoted

/-! # The log

The events of a run as lines of text. Details of the course are shown when more
logging is asked for once, single tokens when it is asked for again. A line opens with
its message, which may hold a path and has the controls that open a terminal's commands
escaped; the named values behind it are written as they are. -/

namespace Monkey.Command

/-- An entry is an event of the parser, or the end of a file. -/
inductive LogEntry where
  | event (event : Event)
  | parsed (path : String) (recovery : Recovery) (statements : Nat)

def recoveryName : Recovery → String
  | .skipToken => "SkipToken"
  | .synchronize => "Synchronize"

/-- How a character of a message is written: the bell, the backspace, the form feed, the
escape, the delete and the controls from U+0080 to U+009F by their code points, and every
other character as itself. -/
def messageChar (c : Char) : String :=
  if c = '\x07' || c = '\x08' || c = '\x0c' || c = '\x1b' || c = '\x7f' then
    "\\x" ++ Text.padLeft 2 '0' (Text.hexadecimal c.toNat)
  else if 0x80 ≤ c.toNat && c.toNat ≤ 0x9f then Text.codeEscape c
  else c.toString

def messageText (s : String) : String :=
  String.join (s.toList.map messageChar)

namespace LogEntry

/-- How often more logging must be asked for before the entry is shown. -/
def level : LogEntry → Nat
  | event (.token _) => 2
  | _ => 1

def text : LogEntry → String
  | event (.token token) =>
    "TRACE monkey_lexer::lexer: token kind=" ++ token.kind.text ++ " literal=" ++ token.literal ++
      " line=" ++ toString token.span.start.line
  | event (.statement statement) =>
    "DEBUG monkey_parser::parser: parsed statement statement=" ++ statement.text
  | event (.resynchronized skipped) =>
    "DEBUG monkey_parser::parser: resynchronized at statement boundary skipped=" ++
      toString skipped
  | event (.program statements errors) =>
    "DEBUG monkey_parser::parser: parsed program statements=" ++ toString statements ++
      " errors=" ++ toString errors
  | parsed path recovery statements =>
    "DEBUG monkey: parsed " ++ messageText path ++ " recovery=" ++ recoveryName recovery ++
      " statements=" ++ toString statements

end LogEntry

/-- The lines of the entries that are shown. -/
def logText (verbosity : Nat) (entries : List LogEntry) : String :=
  String.join ((entries.filter (·.level ≤ verbosity)).map (·.text ++ "\n"))

end Monkey.Command
