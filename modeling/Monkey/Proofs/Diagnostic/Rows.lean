import Mathlib.Data.List.Forall2
import Monkey.Diagnostic.Snippet
import Monkey.Proofs.Source.Lines

/-! # Rows of a diagnostic

With colors or without, a diagnostic is a heading, up to four rows for each label, and one row
for each piece of advice. Without colors the four rows of a label are laid out in columns, with
the marks below the line. -/

namespace Monkey

/-! ## Rows -/

/-- Rows one below the other, each with a line feed behind it. -/
def unlines (rows : List String) : String := String.join (rows.map (· ++ "\n"))

@[simp] theorem unlines_nil : unlines [] = "" := rfl

theorem unlines_append (rows more : List String) :
    unlines (rows ++ more) = unlines rows ++ unlines more := by
  rw [unlines, List.map_append, String.join_append]
  rfl

theorem unlines_cons (row : String) (rows : List String) :
    unlines (row :: rows) = row ++ "\n" ++ unlines rows := by
  rw [unlines, List.map_cons, String.join_cons]
  rfl

/-- A text is interpolated as it is. -/
@[simp] theorem toString_text (text : String) : toString text = text := rfl

/-- A text without a line feed. -/
def IsRow (text : String) : Prop := '\n' ∉ text.toList

instance (text : String) : Decidable (IsRow text) := inferInstanceAs (Decidable (¬ _))

@[simp] theorem isRow_append {text more : String} :
    IsRow (text ++ more) ↔ IsRow text ∧ IsRow more := by
  simp [IsRow]

/-- A number is written in digits. -/
theorem notMem_repr {c : Char} (h : ¬ c.isDigit) (n : Nat) : c ∉ n.repr.toList := by
  intro mem
  rw [Nat.toList_repr] at mem
  exact h (Nat.isDigit_of_mem_toDigits (by decide) (by decide) mem)

@[simp] theorem isRow_repr (n : Nat) : IsRow n.repr := notMem_repr (by decide) n

theorem isRow_replicate (n : Nat) {c : Char} (h : c ≠ '\n') : IsRow (Text.replicate n c) := by
  simp [IsRow, Text.replicate, List.mem_replicate, h.symm]

/-- A style as it is written. -/
def Style.write (colored : Bool) (style : Style) : String :=
  if colored then style.escape else ""

@[simp] theorem Style.write_false (style : Style) : style.write false = "" := rfl

theorem writePieces_append (colored : Bool) (pieces more : List Piece) :
    writePieces colored (pieces ++ more) =
      writePieces colored pieces ++ writePieces colored more := by
  rw [writePieces, List.map_append, String.join_append]
  rfl

/-! ## The rows of a label -/

/-- The parts of the four rows in which a label is shown. -/
structure Snippet where
  place : String
  gutter : String
  margin : String
  code : String
  padding : String
  indent : String
  marks : String
  message : String
deriving Inhabited

@[simp] theorem Text.length_replicate (n : Nat) (c : Char) : (Text.replicate n c).length = n := by
  simp [Text.replicate]

/-- The place, an empty row, the line of the file, and the marks below it. -/
def Snippet.rows (s : Snippet) : List String :=
  [s.place, s.gutter, s.margin ++ s.code, s.padding ++ s.indent ++ s.marks ++ " " ++ s.message]

theorem length_flatMap_rows (snippets : List Snippet) :
    (snippets.flatMap Snippet.rows).length = 4 * snippets.length := by
  induction snippets with
  | nil => rfl
  | cons s snippets ih =>
    have four : s.rows.length = 4 := rfl
    rw [List.flatMap_cons, List.length_append, ih, four, List.length_cons]
    omega

namespace Label

def mark (label : Label) : Char := if label.isPrimary then '^' else '-'

section

variable (colored : Bool) (label : Label)

def placeRow (file : SourceFile) : String :=
  " " ++ Style.blue.write colored ++ "-->" ++ Style.plain.write colored ++
    s!" {file.name}:{label.span.start.line}:{label.span.start.column}"

/-- Blanks as wide as the number of the line, and the bar beside it. -/
def gutter : String :=
  " " ++ Text.replicate (toString label.span.start.line).length ' ' ++ " " ++
    Style.blue.write colored ++ "|" ++ Style.plain.write colored

def lineRow (line : String) : String :=
  " " ++ Style.blue.write colored ++ toString label.span.start.line ++ Style.plain.write colored ++
    " | " ++ line

/-- The marks below the line, with the message behind them. -/
def marksRow (marks : Nat) : String :=
  label.gutter colored ++ " " ++ Text.replicate (label.span.start.column - 1) ' ' ++
    (if label.isPrimary then Style.red else Style.blue).write colored ++
    Text.replicate marks label.mark ++ " " ++ label.message ++ Style.plain.write colored

theorem write_placePieces (file : SourceFile) :
    writePieces colored (label.placePieces file) = unlines [label.placeRow colored file] := by
  apply String.toList_inj.mp
  simp [writePieces, placePieces, Piece.write, Style.write, unlines, placeRow]

theorem write_linePieces (line : String) (marks : Nat) :
    writePieces colored (label.linePieces line marks) =
      unlines [label.gutter colored, label.lineRow colored line, label.marksRow colored marks] := by
  apply String.toList_inj.mp
  simp [writePieces, linePieces, Piece.write, Style.write, unlines, gutter, lineRow, marksRow, mark]

theorem write_pieces (file : SourceFile) (line : String) (marks : Nat) :
    writePieces colored (label.placePieces file ++ label.linePieces line marks) =
      unlines [label.placeRow colored file, label.gutter colored, label.lineRow colored line,
        label.marksRow colored marks] := by
  rw [writePieces_append, write_placePieces, write_linePieces, ← unlines_append]
  rfl

end

/-- How a label is shown below a line of its file. -/
def snippet (label : Label) (file : SourceFile) (code : String) (marks : Nat) : Snippet :=
  let blank := Text.replicate (toString label.span.start.line).length ' '
  { place := s!" --> {file.name}:{label.span.start.line}:{label.span.start.column}"
    gutter := " " ++ blank ++ " |"
    margin := s!" {label.span.start.line} | "
    code
    padding := " " ++ blank ++ " | "
    indent := Text.replicate (label.span.start.column - 1) ' '
    marks := Text.replicate marks label.mark
    message := label.message }

/-- A snippet has the rows of its label without colors. -/
theorem rows_snippet (label : Label) (file : SourceFile) (code : String) (marks : Nat) :
    (label.snippet file code marks).rows =
      [label.placeRow false file, label.gutter false, label.lineRow false code,
        label.marksRow false marks] := by
  simp [Snippet.rows, snippet, placeRow, gutter, lineRow, marksRow, ← String.toList_inj]

/-- A label on one line of a file that is there is shown below that line. -/
theorem pieces_of_line {label : Label} {cache : SourceCache} {file : SourceFile} {code : String}
    (known : cache.get? label.span.file = some file)
    (line : file.line? label.span.start.line = some code)
    (one : label.span.start.line = label.span.stop.line) :
    label.pieces cache = .ok (label.placePieces file ++
      label.linePieces code (max (label.span.stop.column - label.span.start.column) 1)) := by
  have count : label.markCount code =
      .ok (max (label.span.stop.column - label.span.start.column) 1) := if_pos one
  rw [pieces, known]
  dsimp only
  rw [line]
  dsimp only
  rw [count]
  rfl

/-- The number of the line is as wide as the blanks below it. -/
theorem width_snippet (label : Label) (file : SourceFile) (code : String) (marks : Nat) :
    (label.snippet file code marks).margin.length =
      (label.snippet file code marks).padding.length := by
  simp [snippet]

theorem isRow_snippet {label : Label} {file : SourceFile} {code : String}
    (name : IsRow file.name) (line : IsRow code) (message : IsRow label.message) (marks : Nat) :
    ∀ row ∈ (label.snippet file code marks).rows, IsRow row := by
  have mark : label.mark ≠ '\n' := by
    unfold Label.mark
    split <;> decide
  simp [Snippet.rows, snippet, name, line, message, isRow_replicate _ mark,
    isRow_replicate (c := ' ') _ (by decide)]
  decide

end Label

/-! ## The rows of a diagnostic -/

namespace Diagnostic

section

variable (colored : Bool) (d : Diagnostic)

def heading : String :=
  Style.red.write colored ++ "error" ++ (d.code.map fun code => "[" ++ code.text ++ "]").getD "" ++
    Style.plain.write colored ++ Style.bold.write colored ++ ": " ++ d.message ++
    Style.plain.write colored

def adviceRow (style : Style) (title text : String) : String :=
  "   = " ++ style.write colored ++ title ++ Style.plain.write colored ++ ": " ++ text

/-- The notes and the help. -/
def advice : List String :=
  d.notes.map (adviceRow colored .bold "note") ++ d.help.map (adviceRow colored .green "help")

theorem length_advice : (d.advice colored).length = d.notes.length + d.help.length := by
  simp [advice]

theorem write_heading : writePieces colored d.headingPieces = unlines [d.heading colored] := by
  apply String.toList_inj.mp
  simp [writePieces, headingPieces, Piece.write, Style.write, unlines, heading]

theorem write_advice (style : Style) (title : String) (texts : List String) :
    writePieces colored (texts.flatMap (advicePieces style title)) =
      unlines (texts.map (adviceRow colored style title)) := by
  induction texts with
  | nil => rfl
  | cons text texts ih =>
    have first : writePieces colored (advicePieces style title text) =
        adviceRow colored style title text ++ "\n" := by
      apply String.toList_inj.mp
      simp [writePieces, advicePieces, Piece.write, Style.write, adviceRow]
    rw [List.flatMap_cons, writePieces_append, ih, first, List.map_cons, unlines_cons]

end

theorem isRow_heading {d : Diagnostic} (codes : ∀ code ∈ d.code, IsRow code.text)
    (message : IsRow d.message) : IsRow (d.heading false) := by
  cases same : d.code with
  | none =>
    simp only [heading, same, Option.map_none, Option.getD_none, Style.write_false, isRow_append,
      message]
    decide
  | some code =>
    simp only [heading, same, Option.map_some, Option.getD_some, Style.write_false, isRow_append,
      message, codes code same]
    decide

theorem isRow_advice {d : Diagnostic} (notes : ∀ note ∈ d.notes, IsRow note)
    (help : ∀ text ∈ d.help, IsRow text) : ∀ row ∈ d.advice false, IsRow row := by
  intro row mem
  rcases List.mem_append.mp mem with inNotes | inHelp
  · obtain ⟨note, among, rfl⟩ := List.mem_map.mp inNotes
    simp only [adviceRow, Style.write_false, isRow_append, notes note among]
    decide
  · obtain ⟨text, among, rfl⟩ := List.mem_map.mp inHelp
    simp only [adviceRow, Style.write_false, isRow_append, help text among]
    decide

/-- When each label is shown as some rows, the diagnostic is the heading, these rows and the
advice. -/
theorem render_eq {d : Diagnostic} {cache : SourceCache} {colored : Bool}
    {rows : List (List String)}
    (shown : List.Forall₂ (fun label rows => ∃ pieces, label.pieces cache = .ok pieces ∧
      writePieces colored pieces = unlines rows) d.labels rows) :
    d.render cache colored =
      .ok (unlines (d.heading colored :: rows.flatten ++ d.advice colored)) := by
  have labels : ∃ parts, d.labels.mapM (Label.pieces cache) = .ok parts ∧
      writePieces colored parts.flatten = unlines rows.flatten := by
    generalize d.labels = labels at shown
    induction shown with
    | nil => exact ⟨[], rfl, rfl⟩
    | cons first _ ih =>
      obtain ⟨pieces, same, above⟩ := first
      obtain ⟨parts, rest, below⟩ := ih
      refine ⟨pieces :: parts, ?_, ?_⟩
      · rw [List.mapM_cons, same, rest]
        rfl
      · rw [List.flatten_cons, writePieces_append, above, below, List.flatten_cons, unlines_append]
  obtain ⟨parts, whole, below⟩ := labels
  have written : writePieces colored (d.headingPieces ++ parts.flatten ++
      d.notes.flatMap (advicePieces .bold "note") ++ d.help.flatMap (advicePieces .green "help")) =
      unlines (d.heading colored :: rows.flatten ++ d.advice colored) := by
    simp only [writePieces_append, write_heading, write_advice, below, advice, List.cons_append,
      unlines_cons, unlines_append, unlines_nil, String.append_empty, String.append_assoc]
  rw [render, pieces, whole]
  exact congrArg Except.ok written

end Diagnostic

end Monkey
