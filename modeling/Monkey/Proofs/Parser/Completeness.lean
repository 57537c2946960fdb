import Monkey.Analysis
import Monkey.Proofs.Lexer.Scan
import Monkey.Proofs.Parser.Progress
import Monkey.Proofs.Parser.Trace

/-! # Completeness of the diagnostics

A parser comes to the end of its text whatever its rule does, and on the way its lexer
records each illegal character once. Main statement: unless a rule asks for the diagnostics
of the lexer, the ones that are held in the end are those of the text, and the others are
the mismatches. -/

namespace Monkey

/-! ## Rules that leave the lexer alone -/

/-- A rule that never takes the diagnostics of the lexer, whatever it sees. -/
def Rule.LeavesLexer (rule : Rule) : Prop := rule.AsksFor fun _ m => m ≠ .takeLexerDiagnostics

theorem StandardRule.leavesLexer (s : StandardRule) : s.rule.LeavesLexer :=
  s.asksFor fun _ _ => by simp

namespace Window

theorem ne_takeLexerDiagnostics_of_mem {rule : Rule} (leaves : rule.LeavesLexer) (w : Window) :
    ∀ m ∈ w.programMoves rule, m ≠ .takeLexerDiagnostics := by
  have unasked : HoldsUnasked fun _ m => m ≠ .takeLexerDiagnostics :=
    ⟨by simp, by simp, by simp⟩
  rw [programMoves, List.forall_mem_cons]
  exact ⟨by simp, each_iff_forall_mem.mp (each_programMoves unasked leaves w)⟩

/-- What a lexer holds and will add stays the same unless it is taken. -/
theorem reports_replay {moves : List Move} (leave : ∀ m ∈ moves, m ≠ .takeLexerDiagnostics)
    (w : Window) : (w.replay moves).lexer.reports = w.lexer.reports := by
  induction moves generalizing w with
  | nil => rfl
  | cons m moves ih =>
    obtain ⟨other, others⟩ := List.forall_mem_cons.mp leave
    rw [replay_cons, ih others]
    cases m with
    | next => exact w.lexer.reports_next
    | takeLexerDiagnostics => exact absurd rfl other
    | miss | clear | takeDiagnostics | log => rfl

/-! ## Coming to the end -/

/-- Whatever its rule does, a parser comes to the end of the text. -/
theorem current_parseFrom (rule : Rule) {bound : Nat} (statements : Array Statement) {w : Window}
    (h : w.remaining < bound) : (parseFrom rule statements w h).window.current.kind = .eof := by
  refine parseFrom_induction rule (motive := fun _ _ _ left => left.current.kind = .eof) ?_ ?_
    statements h
  · intro statements w eof
    exact eof
  · intro statements w more program left inner read programs rest
    exact rest

end Window

open Window

/-! ## Whole texts -/

/-- A text that is read with any rule leaves a window at the end of its tokens, and each of
the mismatches is about two neighbours among them. -/
theorem exists_standsAt_readWith (rule : Rule) (source : String) (file : FileId)
    (recovery : Recovery) :
    ∃ tokens last i handed, (tokenize source file).1.toList = tokens ++ [last] ∧
      (readWith rule source file recovery).2.StandsAt tokens last i handed ∧
      (readWith rule source file recovery).2.current.kind = .eof ∧
      (readWith rule source file recovery).2.MismatchesOf (endless (tokens ++ [last])) := by
  obtain ⟨tokens, last, all, _, _⟩ := (Lexer.ofText source file).exists_stream_eq
  let w := Window.ofLexer recovery (.ofText source file)
  have start : w.StandsAt tokens last 0 [] := standsAt_ofLexer (Lexer.hasRead_ofText all) recovery
  have none : w.MismatchesOf (endless (tokens ++ [last])) :=
    fun _ mem => absurd mem List.not_mem_nil
  have stands := start.replay (w.programMoves rule)
  have mismatches := start.mismatchesOf_replay none (w.programMoves rule)
  rw [replay_programMoves] at stands mismatches
  exact ⟨tokens, last, _, _, all, stands, current_parseFrom rule #[] _, mismatches⟩

/-- A rule that leaves the lexer alone leaves all its diagnostics to the end. -/
theorem lexer_diagnostics_readWith {rule : Rule} (leaves : rule.LeavesLexer) (source : String)
    (file : FileId) (recovery : Recovery) :
    (readWith rule source file recovery).2.lexer.diagnostics = (tokenize source file).2 := by
  obtain ⟨tokens, last, i, handed, _, stands, eof, _⟩ :=
    exists_standsAt_readWith rule source file recovery
  have ahead := stands.ahead
  rw [ahead.current_kind_eq_eof_iff.mp eof] at ahead
  let w := Window.ofLexer recovery (.ofText source file)
  have kept := reports_replay (ne_takeLexerDiagnostics_of_mem leaves w) w
  rw [replay_programMoves, reports_ofLexer] at kept
  apply Array.toList_inj.mp
  exact ahead.diagnostics_lexer.trans (kept.trans (Lexer.diagnostics_tokenize _).symm)

theorem code_of_mem_mismatches {rule : Rule} {source : String} {file : FileId}
    {recovery : Recovery} :
    ∀ d ∈ (readWith rule source file recovery).2.diagnostics, d.code = some .unexpectedToken := by
  obtain ⟨tokens, last, i, handed, _, _, _, mismatches⟩ :=
    exists_standsAt_readWith rule source file recovery
  intro d mem
  obtain ⟨kind, i, rfl⟩ := mismatches d (Array.mem_toList_iff.mpr mem)
  rfl

theorem lexer_diagnostics_readProgram (source : String) (file : FileId) (recovery : Recovery) :
    (readProgram source file recovery).2.lexer.diagnostics = (tokenize source file).2 :=
  lexer_diagnostics_readWith (StandardRule.leavesLexer .skip) source file recovery

theorem diagnostics_parse (source : String) (file : FileId) (recovery : Recovery) :
    (parse source file recovery).2 =
      (tokenize source file).2 ++ (readProgram source file recovery).2.diagnostics :=
  congrArg (· ++ (readProgram source file recovery).2.diagnostics)
    (lexer_diagnostics_readProgram source file recovery)

/-- Nothing is wrong with a text that has neither illegal tokens nor mismatches. -/
theorem isEmpty_parse_iff (source : String) (file : FileId) (recovery : Recovery) :
    (parse source file recovery).2.isEmpty = true ↔
      (∀ t ∈ (tokenize source file).1, t.isIllegal = false) ∧
        ∀ d ∈ (parse source file recovery).2, d.code ≠ some .unexpectedToken := by
  have illegal := diagnostics_tokenize_text source file
  rw [Array.isEmpty_iff, diagnostics_parse, Array.append_eq_empty_iff]
  constructor
  · rintro ⟨lexical, mismatches⟩
    refine ⟨?_, by simp [lexical, mismatches]⟩
    intro t ht
    rw [lexical] at illegal
    have nothing := List.map_eq_nil_iff.mp illegal.symm
    simpa using List.filter_eq_nil_iff.mp nothing t (Array.mem_toList_iff.mpr ht)
  · rintro ⟨legal, codes⟩
    constructor
    · rw [List.filter_eq_nil_iff.mpr] at illegal
      · exact Array.toList_inj.mp illegal
      · intro t ht
        simp [legal t (Array.mem_toList_iff.mp ht)]
    · apply Array.eq_empty_iff_forall_not_mem.mpr
      intro d hd
      exact codes d (Array.mem_append_right _ hd) (code_of_mem_mismatches d hd)

/-- A text is told of each illegal character once, and all else that it is told of is a
mismatch. Its analysis has both, from two readings of the text, and is right when there is
neither. -/
theorem parse_reports_all (source : String) (file : FileId) (recovery : Recovery) :
    let tokens := (tokenize source file).1
    let illegal := (tokenize source file).2
    let mismatches := (readProgram source file recovery).2.diagnostics
    let analysis := Analysis.ofText source recovery
    (∀ rule : Rule, rule.LeavesLexer →
      (readWith rule source file recovery).2.lexer.diagnostics = illegal) ∧
    illegal.toList = (tokens.toList.filter Token.isIllegal).map Token.illegalCharacter ∧
    (∀ t ∈ tokens, t.isIllegal = true → ∃ c : Char, t.literal = c.toString ∧
      t.illegalCharacter = {
        code := some .illegalCharacter
        message := s!"illegal character '{c}'"
        labels := [⟨t.span, "not part of the Monkey language", true⟩]
        notes := []
        help := [] }) ∧
    (parse source file recovery).2 = illegal ++ mismatches ∧
    (∀ d ∈ mismatches, d.code = some .unexpectedToken) ∧
    analysis.tokens = (tokenize source 0).1 ∧
    analysis.program = (readProgram source 0 recovery).1 ∧
    analysis.diagnostics =
      (tokenize source 0).2 ++ (readProgram source 0 recovery).2.diagnostics ∧
    (analysis.succeeds = true ↔
      (∀ t ∈ analysis.tokens, t.isIllegal = false) ∧
        ∀ d ∈ analysis.diagnostics, d.code ≠ some .unexpectedToken) :=
  ⟨fun _ leaves => lexer_diagnostics_readWith leaves source file recovery,
    diagnostics_tokenize_text source file, fun _ => illegalCharacter_eq,
    diagnostics_parse source file recovery, code_of_mem_mismatches, rfl, rfl,
    diagnostics_parse source 0 recovery, isEmpty_parse_iff source 0 recovery⟩

/-- A program in the middle of a value forgets the mismatches before it, but no illegal
character. -/
theorem parse_reports_all_nested :
    let source := "let $; let a = \x7b @"
    let t : Token := ⟨.illegal, "@", ⟨⟨1, 18, 17⟩, ⟨1, 19, 18⟩, 0⟩⟩
    Rule.nested.LeavesLexer ∧ t ∈ (tokenize source 0).1 ∧ t.isIllegal = true ∧
      (readWith .nested source 0 .skipToken).2.lexer.diagnostics = (tokenize source 0).2 ∧
      ∃ c : Char, t.literal = c.toString := by
  intro source t
  have mem : t ∈ (tokenize source 0).1 := by decide +kernel
  obtain ⟨held, _, characters, _⟩ := parse_reports_all source 0 .skipToken
  obtain ⟨c, literal, _⟩ := characters t mem rfl
  exact ⟨StandardRule.nested.leavesLexer, mem, rfl, held .nested StandardRule.nested.leavesLexer, c,
    literal⟩

end Monkey
