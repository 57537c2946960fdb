import Monkey.Proofs.Diagnostic.Files
import Monkey.Proofs.Diagnostic.Points
import Monkey.Proofs.Parser.Agreement
import Monkey.Proofs.Parser.Provenance
import Monkey.Proofs.Source.Joining

/-! # Texts under other numbers

The number of a file is carried from the text into each span and is looked at by nothing but the
files that diagnostics are shown with. Main statement: a text that is read under another number
gives the same with the other number in each span, and is shown the same. -/

namespace Monkey

/-! ## Spans that stay -/

@[simp] theorem Token.relocate_id (t : Token) : t.relocate id = t := rfl

@[simp] theorem Expression.relocate_id (e : Expression) : e.relocate id = e := by
  cases e
  rfl

@[simp] theorem Statement.relocate_id (s : Statement) : s.relocate id = s := by
  have values : Expression.relocate id = id := funext Expression.relocate_id
  cases s with
  | letBinding keyword name value => simp [relocate, values, Identifier.relocate]
  | returning keyword value => simp [relocate, values]

@[simp] theorem Program.relocate_id (p : Program) : p.relocate id = p := by
  have statements : Statement.relocate id = id := funext Statement.relocate_id
  simp [relocate, statements]

@[simp] theorem Diagnostic.relocate_id (d : Diagnostic) : d.relocate id = d := by
  have labels : Label.relocate id = id := rfl
  simp [relocate, labels]

/-! ## Tokens in another file -/

/-- The tokens of a text do not hang on its number but for their spans. -/
theorem Scan.inFile {file : FileId} {passed rest : List Char} {tokens : List Token}
    (scan : Scan file passed rest tokens) (other : FileId) :
    Scan other passed rest (tokens.map (Token.relocate (Span.inFile other))) := by
  induction scan with
  | finish blank => exact .finish blank
  | token blank lexeme stops _ ih => exact .token blank lexeme stops ih

theorem tokenize_inFile (source : String) (file other : FileId) :
    tokenize source other =
      ((tokenize source file).1.map (Token.relocate (Span.inFile other)),
        (tokenize source file).2.map (Diagnostic.relocate (Span.inFile other))) := by
  have tokens := (scan_tokenize_iff source other _).mp ((scan_tokenize source file).inFile other)
  have told := diagnostics_tokenize_text source other
  rw [tokens, List.filter_map, List.map_map] at told
  refine Prod.ext (Array.toList_inj.mp ?_) (Array.toList_inj.mp ?_)
  · rw [tokens, Array.toList_map]
  · rw [told, Array.toList_map, diagnostics_tokenize_text, List.map_map]
    rfl

/-! ## Programs in another file -/

/-- Spans of one file are joined in another one as they are in theirs. -/
theorem Span.exists_merge_inFile {a b : Span} (same : a.file = b.file) (other : FileId) :
    ∃ m, a.merge b = .ok m ∧ m.file = a.file ∧
      (a.inFile other).merge (b.inFile other) = .ok (m.inFile other) :=
  ⟨_, merge_of_file_eq same, rfl, merge_of_file_eq rfl⟩

/-- The span of a statement is in the file of its tokens. -/
theorem Statement.exists_span_inFile {s : Statement} {file : FileId}
    (tokens : ∀ t ∈ s.tokens, t.span.file = file) (other : FileId) :
    ∃ span, s.span = .ok span ∧ span.file = file ∧
      (s.relocate (Span.inFile other)).span = .ok (span.inFile other) := by
  have joined : ∀ keyword ∈ s.tokens, ∀ t ∈ s.tokens, ∃ span, keyword.span.merge t.span = .ok span ∧
      span.file = file ∧
      (keyword.span.inFile other).merge (t.span.inFile other) = .ok (span.inFile other) := by
    intro keyword among t mem
    have same : keyword.span.file = t.span.file := by rw [tokens keyword among, tokens t mem]
    obtain ⟨span, merged, inFile, moved⟩ := Span.exists_merge_inFile same other
    exact ⟨span, merged, inFile.trans (tokens keyword among), moved⟩
  cases s with
  | letBinding keyword name value =>
    rcases value with _ | ⟨⟨value⟩⟩
    · exact joined keyword (by simp [Statement.tokens]) name.token (by simp [Statement.tokens])
    · exact joined keyword (by simp [Statement.tokens]) value.token
        (by simp [Statement.tokens, Expression.tokens])
  | returning keyword value =>
    rcases value with _ | ⟨⟨value⟩⟩
    · exact ⟨keyword.span, rfl, tokens keyword (by simp [Statement.tokens]), rfl⟩
    · exact joined keyword (by simp [Statement.tokens]) value.token
        (by simp [Statement.tokens, Expression.tokens])

/-- Under another number the same program and diagnostics are read, in the other file. -/
theorem readWith_inFile (rule : StandardRule) (source : String) (recovery : Recovery)
    (file other : FileId) :
    let read := readWith rule.rule source file recovery
    let read' := readWith rule.rule source other recovery
    read'.1 = read.1.relocate (Span.inFile other) ∧
      read'.2.lexer.diagnostics =
        read.2.lexer.diagnostics.map (Diagnostic.relocate (Span.inFile other)) ∧
      read'.2.diagnostics = read.2.diagnostics.map (Diagnostic.relocate (Span.inFile other)) := by
  intro read read'
  have stream : (tokenize source file).1.toList.map (Token.relocate (Span.inFile other)) =
      (tokenize source other).1.toList.map (Token.relocate id) := by
    have same : Token.relocate id = id := rfl
    rw [tokenize_inFile source file other, Array.toList_map, same, List.map_id]
  obtain ⟨program, window⟩ := readWith_agree rule.ignoresSpans stream recovery
  have same : Diagnostic.relocate id = id := funext Diagnostic.relocate_id
  have lexical := window.recorded
  have syntactic := window.diagnostics
  rw [same, Array.map_id] at lexical syntactic
  exact ⟨by simpa using program.symm, lexical.symm, syntactic.symm⟩

/-- All spans of a text are in its file: those of its tokens, of the parts and the statements of
its program, and of the labels of its diagnostics. Under another number all of them are in the
other file and nothing else is changed, and where both numbers find the same file, the
diagnostics are shown the same. -/
theorem read_under_another_number (rule : StandardRule) (source : String) (recovery : Recovery)
    (file other : FileId) :
    let move := Span.inFile other
    let read := readWith rule.rule source file recovery
    let read' := readWith rule.rule source other recovery
    (∀ t ∈ (tokenize source file).1, t.span.file = file) ∧
    (∀ t ∈ read.1.tokens, t.span.file = file) ∧
    (∀ s ∈ read.1.statements, ∃ span, s.span = .ok span ∧ span.file = file ∧
      (s.relocate move).span = .ok (move span)) ∧
    (∀ d ∈ (tokenize source file).2 ++ read.2.allDiagnostics,
      ∀ label ∈ d.labels, label.span.file = file) ∧
    tokenize source other = ((tokenize source file).1.map (Token.relocate move),
      (tokenize source file).2.map (Diagnostic.relocate move)) ∧
    read'.1 = read.1.relocate move ∧
    read'.2.lexer.diagnostics = read.2.lexer.diagnostics.map (Diagnostic.relocate move) ∧
    read'.2.diagnostics = read.2.diagnostics.map (Diagnostic.relocate move) ∧
    ∀ (cache cache' : SourceCache) (colored : Bool), cache'.get? other = cache.get? file →
      Diagnostics.render cache' colored (tokenize source other).2 =
        Diagnostics.render cache colored (tokenize source file).2 ∧
      Diagnostics.render cache' colored read'.2.allDiagnostics =
        Diagnostics.render cache colored read.2.allDiagnostics := by
  intro move read read'
  obtain ⟨program, lexical, syntactic⟩ := readWith_inFile rule source recovery file other
  have tokens := tokenize_inFile source file other
  have inTokens : ∀ t ∈ (tokenize source file).1, t.span.file = file := fun t mem => t.file_eq mem
  have inProgram : ∀ t ∈ read.1.tokens, t.span.file = file := fun t mem =>
    inTokens t (mem_tokenize_of_mem_tokens rule mem)
  have inLabels : ∀ d ∈ (tokenize source file).2 ++ read.2.allDiagnostics,
      ∀ label ∈ d.labels, label.span.file = file := by
    intro d mem label among
    have known : d.OfTokens (tokenize source file).1 := by
      rcases Array.mem_append.mp mem with listed | found
      · exact ofTokens_of_mem_tokenize listed
      · exact ofTokens_of_mem_readWith rule.rule found
    obtain ⟨t, inside, span⟩ := known.exists_token label among
    rw [span, inTokens t inside]
  have all : read'.2.allDiagnostics = read.2.allDiagnostics.map (Diagnostic.relocate move) := by
    rw [Window.allDiagnostics, lexical, syntactic, ← Array.map_append]
    rfl
  refine ⟨inTokens, inProgram, ?_, inLabels, tokens, program, lexical, syntactic, ?_⟩
  · intro s mem
    refine Statement.exists_span_inFile (fun t among => inProgram t ?_) other
    exact List.mem_flatMap.mpr ⟨s, Array.mem_toList_iff.mpr mem, among⟩
  · intro cache cache' colored same
    have shows : ∀ d ∈ (tokenize source file).2 ++ read.2.allDiagnostics,
        (d.relocate move).render cache' colored = d.render cache colored := by
      intro d mem
      refine Diagnostic.render_relocate fun label among => ?_
      rw [inLabels d mem label among, same]
    rw [tokens, all]
    exact ⟨Diagnostics.render_map fun d mem => shows d (Array.mem_append_left _ mem),
      Diagnostics.render_map fun d mem => shows d (Array.mem_append_right _ mem)⟩

/-- A program in a value and an illegal character, first in one cache and then in another one in
which other files come before. -/
theorem read_under_another_number_later :
    let source := "let a = \x7blet b = c; let §;"
    let cache := (SourceCache.empty.add "main.mk" source).2
    let cache' := (((SourceCache.empty.add "a" "").2.add "b" "").2.add "main.mk" source).2
    let read := readWith Rule.nested source 0 .skipToken
    let read' := readWith Rule.nested source 2 .skipToken
    cache'.get? 2 = cache.get? 0 ∧ read.1.size = 1 ∧ read.2.allDiagnostics.size = 2 ∧
      read'.1 = read.1.relocate (Span.inFile 2) ∧ read'.1 ≠ read.1 ∧
      Diagnostics.render cache' true read'.2.allDiagnostics =
        Diagnostics.render cache true read.2.allDiagnostics := by
  intro source cache cache' read read'
  have same : cache'.get? 2 = cache.get? 0 := rfl
  obtain ⟨_, _, _, _, _, program, _, _, shows⟩ :=
    read_under_another_number .nested source .skipToken 0 2
  exact ⟨same, by decide +kernel, by decide +kernel, program, by decide +kernel,
    (shows cache cache' true same).2⟩

end Monkey
