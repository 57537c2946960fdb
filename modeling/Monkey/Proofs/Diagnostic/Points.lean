import Monkey.Proofs.Diagnostic.Rows
import Monkey.Proofs.Lexer.Tiling
import Monkey.Proofs.Parser.Completeness

/-! # Diagnostics point at the text

The lexer counts lines and columns, the file finds lines by byte offsets, and a label is
shown where the one meets the other. Main statement: the marks of a diagnostic stand right
below the token that it is about. -/

namespace Monkey

/-! ## A token in its line -/

/-- A token stands on one line of a file, where its span says. -/
structure Token.StandsOn (t : Token) (code : String) : Prop where
  isRow : IsRow code
  one : t.span.start.line = t.span.stop.line
  column_pos : 0 < t.span.start.column
  width : t.span.stop.column = t.span.start.column + t.literal.length
  above : t.kind ≠ .eof →
    (code.toList.drop (t.span.start.column - 1)).take t.literal.length = t.literal.toList

theorem isRow_trimReturns {line : String} (h : IsRow line) :
    IsRow (SourceFile.trimReturns line) := by
  intro mem
  rw [SourceFile.trimReturns, String.toList_ofList, List.mem_reverse] at mem
  exact h (List.mem_reverse.mp ((List.dropWhile_suffix _).subset mem))

/-- The places of a token are counted from the text before it. -/
theorem Lexeme.span_tokenBehind (l : Lexeme) (before : List Char) (free : '\n' ∉ l.text)
    (file : FileId) :
    let span := (l.tokenBehind before file).span
    span.start.line = before.count '\n' + 1 ∧ span.stop.line = before.count '\n' + 1 ∧
      span.start.column = (lastLine before).length + 1 ∧
      span.stop.column = (lastLine before).length + 1 + l.text.length := by
  have first : Position.first.line = 1 := rfl
  simp only [tokenBehind, Position.afterText_line, Position.afterText_first_column,
    lastLine_append_of_not_mem before free, List.count_append, List.count_eq_zero.mpr free,
    List.length_append, first]
  omega

section

variable {source : String} {file : FileId} {t : Token} (mem : t ∈ (tokenize source file).1)

include mem

/-- Where a token of a text stands. -/
theorem exists_split_tokenize : ∃ before after,
    source.toList = before ++ t.literal.toList ++ after ∧
      t = t.lexeme.tokenBehind before file ∧ (t.lexeme = ⟨.eof, []⟩ ∨ IsLexeme t.lexeme) :=
  (scan_tokenize source file).exists_split t (Array.mem_toList_iff.mpr mem)

theorem Token.isRow_literal : IsRow t.literal := by
  obtain ⟨_, _, _, _, eof | lexeme⟩ := exists_split_tokenize mem
  · have empty : t.literal.toList = [] := congrArg Lexeme.text eof
    simp [IsRow, empty]
  · exact fun newline => absurd (lexeme.isBlank_of_mem '\n' newline) (by decide)

theorem Token.file_eq : t.span.file = file := by
  obtain ⟨_, _, _, same, _⟩ := exists_split_tokenize mem
  rw [same]
  rfl

theorem Token.literal_of_eof (eof : t.kind = .eof) : t.literal = "" := by
  obtain ⟨_, _, _, _, last | lexeme⟩ := exists_split_tokenize mem
  · exact String.toList_inj.mp (congrArg Lexeme.text last)
  · exact absurd eof lexeme.kind_ne_eof

theorem Token.length_pos (notEof : t.kind ≠ .eof) : 0 < t.literal.length := by
  obtain ⟨_, _, _, _, last | lexeme⟩ := exists_split_tokenize mem
  · exact absurd (congrArg Lexeme.kind last) notEof
  · rw [← String.length_toList]
    exact List.length_pos_iff.mpr lexeme.text_ne_nil

/-- The file has the line of each token of its text, and the token stands on it. -/
theorem SourceFile.exists_line {f : SourceFile} (text : f.source = source) :
    ∃ code, f.line? t.span.start.line = some code ∧ t.StandsOn code := by
  obtain ⟨before, after, split, same, lexeme⟩ := exists_split_tokenize mem
  have free : '\n' ∉ t.literal.toList := Token.isRow_literal mem
  obtain ⟨startLine, stopLine, startColumn, stopColumn⟩ :=
    t.lexeme.span_tokenBehind before free file
  rw [← same] at startLine stopLine startColumn stopColumn
  obtain ⟨front, behind, isLine, whole, count⟩ := exists_isLine before after free
  rw [← text, whole] at split
  have line := line?_of_isLine isLine split
  refine ⟨_, by rw [startLine, ← count]; exact line, ?_⟩
  refine ⟨isRow_trimReturns ?_, by rw [startLine, stopLine], by omega, ?_, ?_⟩
  · rw [IsRow, String.toList_ofList]
    exact isLine.free
  · rw [stopColumn, startColumn]
    exact congrArg _ String.length_toList
  · intro notEof
    have lexeme := lexeme.resolve_left fun eof => notEof (congrArg Lexeme.kind eof)
    have noReturn : '\r' ∉ t.literal.toList :=
      fun mem => absurd (lexeme.isBlank_of_mem '\r' mem) (by decide)
    have some : t.literal.toList ≠ [] := lexeme.text_ne_nil
    obtain ⟨more, trimmed⟩ := exists_trimReturns some noReturn (lastLine before)
      (after.takeWhile (· ≠ '\n'))
    have column : t.span.start.column - 1 = (lastLine before).length := by omega
    rw [column, ← String.length_toList, trimmed, List.append_assoc, List.drop_left, List.take_left]

end

/-! ## Labels and tokens -/

/-- A snippet shows a label about a token: the place is the start of the label, the rows of
the line and of the marks begin equally wide, and the characters right above the marks are
the token. At the end of the text one mark stands in its column. -/
structure Snippet.Shows (s : Snippet) (f : SourceFile) (label : Label) (t : Token) : Prop where
  span_eq : label.span = t.span
  place_eq : s.place = s!" --> {f.name}:{label.span.start.line}:{label.span.start.column}"
  code_eq : f.line? label.span.start.line = some s.code
  margin_eq : s.margin = s!" {label.span.start.line} | "
  padding_eq :
    s.padding = " " ++ Text.replicate (toString label.span.start.line).length ' ' ++ " | "
  width_eq : s.margin.length = s.padding.length
  indent_eq : s.indent = Text.replicate (label.span.start.column - 1) ' '
  message_eq : s.message = label.message
  marks_eq : t.kind ≠ .eof → s.marks = Text.replicate t.literal.length label.mark
  above : t.kind ≠ .eof →
    ((s.margin ++ s.code).toList.drop (s.padding ++ s.indent).length).take s.marks.length =
      t.literal.toList
  at_end : t.kind = .eof →
    s.marks = Text.replicate 1 label.mark ∧ s.indent.length + 1 = t.span.start.column

/-- A diagnostic about some tokens: its labels mark them, and no part of it has a line
feed. -/
structure Diagnostic.About (d : Diagnostic) (tokens : Array Token) : Prop where
  heading : IsRow (d.heading false)
  labels : ∀ label ∈ d.labels, IsRow label.message ∧ ∃ t ∈ tokens, label.span = t.span
  notes : ∀ note ∈ d.notes, IsRow note
  help : ∀ text ∈ d.help, IsRow text

/-- A diagnostic that can be found in tokens: one of them is illegal, or one behind another is
not of the kind that was expected. -/
inductive Diagnostic.OfTokens (tokens : Array Token) : Diagnostic → Prop where
  | illegal {t : Token} (mem : t ∈ tokens) : OfTokens tokens t.illegalCharacter
  | mismatch (kind : Kind) {after found : Token} (afterMem : after ∈ tokens)
    (foundMem : found ∈ tokens) : OfTokens tokens (.mismatch kind after found)

/-- A text without controls. -/
def IsVisible (text : String) : Prop := ∀ c ∈ text.toList, 32 ≤ c.toNat

instance (text : String) : Decidable (IsVisible text) :=
  List.decidableBAll (fun c : Char => 32 ≤ c.toNat) text.toList

theorem notMem_of_isVisible {control : Char} (low : control.toNat < 32) {text : String}
    (visible : IsVisible text) : control ∉ text.toList := by
  intro mem
  have high := visible control mem
  omega

theorem Kind.isVisible_text (kind : Kind) : IsVisible kind.text := by
  cases kind <;> decide

theorem Window.isVisible_expectedHelp (expected after : Kind) :
    ∀ text ∈ (expectedHelp expected after).toList, IsVisible text := by
  unfold expectedHelp
  split <;> simp <;> decide

namespace Diagnostic.OfTokens

variable {tokens : Array Token} {d : Diagnostic}

/-- The tokens bring the only controls into the texts of a diagnostic. -/
theorem notMem_texts (h : d.OfTokens tokens) (control : Char) (low : control.toNat < 32)
    (literals : ∀ t ∈ tokens, control ∉ t.literal.toList) :
    control ∉ d.message.toList ∧ (∀ label ∈ d.labels, control ∉ label.message.toList) ∧
      (∀ note ∈ d.notes, control ∉ note.toList) ∧ ∀ text ∈ d.help, control ∉ text.toList := by
  have fixed : ∀ {text : String}, IsVisible text → control ∉ text.toList :=
    notMem_of_isVisible low
  have kinds := fun kind : Kind => fixed kind.isVisible_text
  cases h with
  | illegal mem =>
    have literal := literals _ mem
    refine ⟨?_, ?_, List.forall_mem_nil _, List.forall_mem_nil _⟩
    · simp (disch := decide) only [Token.illegalCharacter, Diagnostic.error, Diagnostic.withCode,
        Diagnostic.withLabel, toString_text, String.toList_append, List.mem_append, literal, fixed,
        or_self, not_false_eq_true]
    · have message : IsVisible "not part of the Monkey language" := by decide
      exact List.forall_mem_singleton.mpr (fixed message)
  | mismatch kind afterMem foundMem =>
    have afterLiteral := literals _ afterMem
    have foundLiteral := literals _ foundMem
    refine ⟨?_, ?_, ?_, fun text mem => fixed (Window.isVisible_expectedHelp _ _ text mem)⟩
    · simp (disch := decide) only [Diagnostic.mismatch, toString_text, String.toList_append,
        List.mem_append, kinds, fixed, or_self, not_false_eq_true]
    · intro label mem
      rcases List.mem_pair.mp mem with rfl | rfl <;>
        simp (disch := decide) only [toString_text, String.toList_append, List.mem_append, kinds,
          afterLiteral, fixed, or_self, not_false_eq_true]
    · intro note mem
      simp only [Diagnostic.mismatch] at mem
      split at mem
      · simp (disch := decide) only [List.mem_singleton.mp mem, toString_text, String.toList_append,
          List.mem_append, foundLiteral, fixed, or_self, not_false_eq_true]
      · cases mem

theorem code_eq (h : d.OfTokens tokens) :
    ∀ code ∈ d.code, code = .illegalCharacter ∨ code = .unexpectedToken := by
  rintro code mem
  cases h with
  | illegal => exact .inl (Option.some.inj mem).symm
  | mismatch => exact .inr (Option.some.inj mem).symm

theorem exists_token (h : d.OfTokens tokens) :
    ∀ label ∈ d.labels, ∃ t ∈ tokens, label.span = t.span := by
  intro label among
  cases h with
  | illegal mem =>
    obtain rfl := List.mem_singleton.mp among
    exact ⟨_, mem, rfl⟩
  | mismatch kind afterMem foundMem =>
    rcases List.mem_pair.mp among with rfl | rfl
    · exact ⟨_, foundMem, rfl⟩
    · exact ⟨_, afterMem, rfl⟩

theorem about {source : String} {file : FileId} (h : d.OfTokens (tokenize source file).1) :
    d.About (tokenize source file).1 := by
  obtain ⟨message, labels, notes, help⟩ :=
    h.notMem_texts '\n' (by decide) fun t mem => Token.isRow_literal mem
  refine ⟨Diagnostic.isRow_heading ?_ message, ?_, notes, help⟩
  · intro code mem
    rcases h.code_eq code mem with rfl | rfl <;> decide
  · exact fun label mem => ⟨labels label mem, h.exists_token label mem⟩

end Diagnostic.OfTokens

section

variable {source : String} {file : FileId} {d : Diagnostic}

theorem ofTokens_of_mem_tokenize (mem : d ∈ (tokenize source file).2) :
    d.OfTokens (tokenize source file).1 := by
  rw [← Array.mem_toList_iff, diagnostics_tokenize_text] at mem
  obtain ⟨t, illegal, rfl⟩ := List.mem_map.mp mem
  exact .illegal (Array.mem_toList_iff.mp (List.mem_filter.mp illegal).1)

/-- What a window holds, at any place of a run, is found in the tokens of the text. -/
theorem Window.StandsAt.ofTokens_of_mem {w : Window} {tokens : List Token} {last : Token} {i : Nat}
    {handed : List Diagnostic} (all : (tokenize source file).1.toList = tokens ++ [last])
    (stands : w.StandsAt tokens last i handed)
    (held : w.MismatchesOf (endless (tokens ++ [last]))) (mem : d ∈ w.allDiagnostics) :
    d.OfTokens (tokenize source file).1 := by
  have among : ∀ i, endless (tokens ++ [last]) i ∈ (tokenize source file).1 := by
    intro i
    rw [← Array.mem_toList_iff, all]
    exact endless_append_mem tokens last i
  rcases Array.mem_append.mp mem with lexical | mismatch
  · have read : d ∈ illegalAmong (endless (tokens ++ [last])) (i + 2) := by
      rw [← stands.ledger]
      exact List.mem_append_right _ (Array.mem_toList_iff.mpr lexical)
    obtain ⟨t, illegal, rfl⟩ := List.mem_map.mp read
    obtain ⟨place, _, rfl⟩ := List.mem_map.mp (List.mem_filter.mp illegal).1
    exact .illegal (among place)
  · obtain ⟨kind, place, rfl⟩ := held d (Array.mem_toList_iff.mpr mismatch)
    exact .mismatch kind (among place) (among (place + 1))

theorem Window.StandsAt.about_of_mem {w : Window} {tokens : List Token} {last : Token} {i : Nat}
    {handed : List Diagnostic} (all : (tokenize source file).1.toList = tokens ++ [last])
    (stands : w.StandsAt tokens last i handed)
    (held : w.MismatchesOf (endless (tokens ++ [last]))) (mem : d ∈ w.allDiagnostics) :
    d.About (tokenize source file).1 :=
  (stands.ofTokens_of_mem all held mem).about

theorem ofTokens_of_mem_readWith (rule : Rule) {recovery : Recovery}
    (mem : d ∈ (readWith rule source file recovery).2.allDiagnostics) :
    d.OfTokens (tokenize source file).1 := by
  obtain ⟨tokens, last, _, _, all, stands, _, mismatches⟩ :=
    exists_standsAt_readWith rule source file recovery
  exact stands.ofTokens_of_mem all mismatches mem

theorem about_of_mem_parse {recovery : Recovery} (mem : d ∈ (parse source file recovery).2) :
    d.About (tokenize source file).1 :=
  (ofTokens_of_mem_readWith .skip mem).about

end

/-! ## Whole texts -/

/-- A label about a token of the text of a file is shown below its line. -/
theorem exists_snippet {source : String} {file : FileId} {cache : SourceCache} {f : SourceFile}
    (known : cache.get? file = some f) (text : f.source = source) {label : Label} {t : Token}
    (mem : t ∈ (tokenize source file).1) (span : label.span = t.span) (name : IsRow f.name)
    (message : IsRow label.message) :
    ∃ s : Snippet, s.Shows f label t ∧ (∀ row ∈ s.rows, IsRow row) ∧
      ∃ pieces, label.pieces cache = .ok pieces ∧ writePieces false pieces = unlines s.rows := by
  obtain ⟨code, line, stands⟩ := SourceFile.exists_line mem text
  rw [← span] at line
  let marks := max (label.span.stop.column - label.span.start.column) 1
  have count : marks = max t.literal.length 1 := by
    simp only [marks, span, stands.width]
    omega
  have inFile : cache.get? label.span.file = some f := by rw [span, Token.file_eq mem, known]
  have shown := Label.pieces_of_line inFile line (by rw [span, stands.one])
  have written := label.write_pieces false f code marks
  rw [← label.rows_snippet] at written
  refine ⟨label.snippet f code marks, ?_, label.isRow_snippet name stands.isRow message marks,
    _, shown, written⟩
  have width := label.width_snippet f code marks
  have wide : t.kind ≠ .eof → marks = t.literal.length := by
    intro notEof
    have pos := Token.length_pos mem notEof
    omega
  refine ⟨span, rfl, line, rfl, rfl, width, rfl, rfl, ?_, ?_, ?_⟩
  · exact fun notEof => congrArg (Text.replicate · label.mark) (wide notEof)
  · intro notEof
    have margin := String.length_toList (s := (label.snippet f code marks).margin)
    rw [String.toList_append, String.length_append, ← width, ← margin, List.drop_length_add_append]
    simpa [Label.snippet, span, wide notEof] using stands.above notEof
  · intro eof
    have one : marks = 1 := by simp [count, Token.literal_of_eof mem eof]
    refine ⟨congrArg (Text.replicate · label.mark) one, ?_⟩
    simp only [Label.snippet, span, Text.length_replicate]
    exact Nat.sub_add_cancel stands.column_pos

/-- Each diagnostic of a text is shown with the marks of a label right below its token. -/
theorem render_points {source : String} {file : FileId} {cache : SourceCache} {f : SourceFile}
    (known : cache.get? file = some f) (text : f.source = source) (name : IsRow f.name)
    (recovery : Recovery) :
    ∀ d ∈ (parse source file recovery).2, ∃ snippets,
      let rows := d.heading false :: snippets.flatMap Snippet.rows ++ d.advice false
      d.render cache false = .ok (unlines rows) ∧
      (∀ row ∈ rows, IsRow row) ∧
      rows.length = 1 + 4 * d.labels.length + d.notes.length + d.help.length ∧
      List.Forall₂ (fun label snippet => ∃ t ∈ (tokenize source file).1,
        snippet.Shows f label t) d.labels snippets := by
  intro d mem
  have about := about_of_mem_parse mem
  have each : ∀ label ∈ d.labels, ∃ s : Snippet,
      (∃ t ∈ (tokenize source file).1, s.Shows f label t) ∧ (∀ row ∈ s.rows, IsRow row) ∧
        ∃ pieces, label.pieces cache = .ok pieces ∧
          writePieces false pieces = unlines s.rows := by
    intro label among
    obtain ⟨message, t, token, span⟩ := about.labels label among
    obtain ⟨s, shows, rows, written⟩ := exists_snippet known text token span name message
    exact ⟨s, ⟨t, token, shows⟩, rows, written⟩
  choose! snippet shows rows written using each
  refine ⟨d.labels.map snippet, ?_, ?_, ?_, ?_⟩
  · rw [List.flatMap_map]
    exact Diagnostic.render_eq (List.forall₂_map_right_iff.mpr (List.forall₂_same.mpr written))
  · have below : ∀ row ∈ (d.labels.map snippet).flatMap Snippet.rows, IsRow row := by
      intro row mem
      obtain ⟨s, among, here⟩ := List.mem_flatMap.mp mem
      obtain ⟨label, mem, rfl⟩ := List.mem_map.mp among
      exact rows label mem row here
    intro row mem
    rcases List.mem_append.mp mem with upper | advice
    · rcases List.mem_cons.mp upper with rfl | inSnippets
      · exact about.heading
      · exact below row inSnippets
    · exact d.isRow_advice about.notes about.help row advice
  · rw [List.length_append, List.length_cons, length_flatMap_rows, List.length_map,
      Diagnostic.length_advice]
    omega
  · exact List.forall₂_map_right_iff.mpr (List.forall₂_same.mpr shows)

/-- A text of two lines with a return, a character of two bytes and an early end. -/
theorem render_points_two_lines :
    let source := "let §;\r\nlet"
    let file := SourceFile.ofText "main.mk" source
    let cache : SourceCache := ⟨#[file]⟩
    let diagnostics := (parse source 0 .skipToken).2
    cache.get? 0 = some file ∧ IsRow file.name ∧ diagnostics.size = 3 ∧
      ∀ d ∈ diagnostics, ∃ snippets : List Snippet,
        d.render cache false =
          .ok (unlines (d.heading false :: snippets.flatMap Snippet.rows ++ d.advice false)) ∧
        snippets.length = d.labels.length := by
  intro source file cache diagnostics
  have known : cache.get? 0 = some file := rfl
  have name : IsRow file.name := by decide
  refine ⟨known, name, by decide +kernel, fun d mem => ?_⟩
  obtain ⟨snippets, text, _, _, shows⟩ := render_points known rfl name .skipToken d mem
  exact ⟨snippets, text, shows.length_eq.symm⟩

example :
    (parse "let §" 0 .skipToken).2[0]?.map
      (fun d => (d.render ⟨#[.ofText "main.mk" "let §"]⟩ false).toOption) =
    some (some (unlines [
      "error[EL001]: illegal character '§'",
      " --> main.mk:1:5",
      "   |",
      " 1 | let §",
      "   |     ^ not part of the Monkey language"])) := by
  decide +kernel

end Monkey
