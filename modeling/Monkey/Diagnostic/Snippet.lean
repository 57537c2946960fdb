import Monkey.Diagnostic.Basic
import Monkey.Source.Cache

/-! # Snippets

A diagnostic is shown as a heading, the marked source line of each label, and its
notes and help. The text is laid out once as pieces, some of which switch the style;
writing the pieces keeps or drops the switches. -/

namespace Monkey

inductive Style where
  | red
  | bold
  | blue
  | green
  | plain
deriving DecidableEq

/-- The terminal sequence that switches to a style. -/
def Style.escape : Style → String
  | red => "\x1b[1;31m"
  | bold => "\x1b[1m"
  | blue => "\x1b[1;34m"
  | green => "\x1b[1;32m"
  | plain => "\x1b[0m"

inductive Piece where
  | text (text : String)
  | style (style : Style)
deriving DecidableEq

def Piece.write (colored : Bool) : Piece → String
  | .text content => content
  | .style switch => if colored then switch.escape else ""

/-- Pieces one behind the other. -/
def writePieces (colored : Bool) (pieces : List Piece) : String :=
  String.join (pieces.map (Piece.write colored))

/-- The one way in which a snippet cannot be laid out: a label over several lines
starts before the first column. -/
inductive LayoutError where
  | columnUnderflow
deriving DecidableEq

def LayoutError.message : LayoutError → String
  | columnUnderflow => "attempt to subtract with overflow"

namespace Label

/-- The number of marks under a source line: to the end of the label, or to the end
of the line if the label goes on below; at least one. -/
def markCount (label : Label) (line : String) : Except LayoutError Nat :=
  if label.span.start.line = label.span.stop.line then
    .ok (max (label.span.stop.column - label.span.start.column) 1)
  else if label.span.start.column = 0 then .error .columnUnderflow
  else .ok (max (line.length - (label.span.start.column - 1)) 1)

/-- The row that names the place. -/
def placePieces (label : Label) (file : SourceFile) : List Piece :=
  [.text " ", .style .blue, .text "-->", .style .plain,
    .text s!" {file.name}:{label.span.start.line}:{label.span.start.column}\n"]

/-- The gutter, the source line, and the marks with the message below it. -/
def linePieces (label : Label) (line : String) (marks : Nat) : List Piece :=
  let number := toString label.span.start.line
  let gutter := [.text (" " ++ Text.replicate number.length ' ' ++ " "), .style .blue, .text "|",
    .style .plain]
  gutter ++ [.text "\n", .text " ", .style .blue, .text number, .style .plain,
    .text (" | " ++ line ++ "\n")] ++
  gutter ++ [.text (" " ++ Text.replicate (label.span.start.column - 1) ' '),
    .style (if label.isPrimary then .red else .blue),
    .text (Text.replicate marks (if label.isPrimary then '^' else '-') ++ " " ++ label.message),
    .style .plain, .text "\n"]

/-- A label is shown as far as its file and its line can be found. -/
def pieces (cache : SourceCache) (label : Label) : Except LayoutError (List Piece) :=
  match cache.get? label.span.file with
  | none => .ok []
  | some file =>
    match file.line? label.span.start.line with
    | none => .ok (label.placePieces file)
    | some line =>
      (label.markCount line).map fun marks =>
        label.placePieces file ++ label.linePieces line marks

end Label

namespace Diagnostic

def headingPieces (d : Diagnostic) : List Piece :=
  let code := (d.code.map fun code => "[" ++ code.text ++ "]").getD ""
  [.style .red, .text ("error" ++ code), .style .plain, .style .bold, .text (": " ++ d.message),
    .style .plain, .text "\n"]

/-- A line of advice under the snippet. -/
def advicePieces (style : Style) (title text : String) : List Piece :=
  [.text "   = ", .style style, .text title, .style .plain, .text (": " ++ text ++ "\n")]

def pieces (cache : SourceCache) (d : Diagnostic) : Except LayoutError (List Piece) := do
  let labels ← d.labels.mapM (Label.pieces cache)
  return d.headingPieces ++ labels.flatten ++
    d.notes.flatMap (advicePieces .bold "note") ++ d.help.flatMap (advicePieces .green "help")

def render (cache : SourceCache) (colored : Bool) (d : Diagnostic) : Except LayoutError String :=
  (d.pieces cache).map (writePieces colored)

end Diagnostic

/-- All diagnostics, with an empty line between two of them. -/
def Diagnostics.render (cache : SourceCache) (colored : Bool) (ds : Diagnostics) :
    Except LayoutError String :=
  (ds.toList.mapM (Diagnostic.render cache colored)).map "\n".intercalate

end Monkey
