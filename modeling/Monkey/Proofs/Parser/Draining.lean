import Monkey.Proofs.Lexer.Standing
import Monkey.Proofs.Parser.Completeness
import Monkey.Proofs.Parser.Unbounded

/-! # Draining the text

Main statement: reading a program ends whatever the rule for its values does, and leaves
nothing of the text; reading another one then finds nothing and changes nothing. -/

namespace Monkey

namespace Window

/-- The lexer of a window stands in the text, and at its end once the end is in sight. -/
structure StandsIn (w : Window) (text : List Char) (file : FileId) : Prop where
  lexer : w.lexer.StandsIn text file
  at_end : w.peek.kind = .eof → w.lexer.cursor.rest = []

namespace StandsIn

variable {w : Window} {text : List Char} {file : FileId}

theorem of_frame (h : w.StandsIn text file) {w' : Window} (peek : w'.peek = w.peek)
    (cursor : w'.lexer.cursor = w.lexer.cursor) (sameFile : w'.lexer.file = w.lexer.file) :
    w'.StandsIn text file := by
  refine ⟨h.lexer.of_cursor cursor sameFile, ?_⟩
  rw [peek, cursor]
  exact h.at_end

theorem move (h : w.StandsIn text file) (m : Move) : (w.move m).StandsIn text file := by
  cases m with
  | next => exact ⟨h.lexer.next, Lexer.rest_next_of_eof⟩
  | miss | clear | takeDiagnostics | takeLexerDiagnostics | log => exact h.of_frame rfl rfl rfl

theorem replay (h : w.StandsIn text file) (moves : List Move) :
    (w.replay moves).StandsIn text file := by
  induction moves generalizing w with
  | nil => exact h
  | cons m moves ih => exact ih (h.move m)

end StandsIn

theorem standsIn_ofLexer {lexer : Lexer} {text : List Char} {file : FileId}
    (h : lexer.StandsIn text file) (recovery : Recovery) :
    (ofLexer recovery lexer).StandsIn text file :=
  ⟨h.next.next, Lexer.rest_next_of_eof⟩

/-- A window at the end of its text has nothing left to show and nothing left to read. -/
structure Drained (w : Window) (text : List Char) (file : FileId) : Prop where
  current_eq : w.current = .endBehind text file
  peek_eq : w.peek = .endBehind text file
  cursor_eq : w.lexer.cursor = .between text []

/-- Reading a program leads to the end of the text, from any window in it. -/
theorem drained_parseProgram {w : Window} {source : String} {file : FileId} {tokens : List Token}
    {last : Token} {i : Nat} {handed : List Diagnostic}
    (all : (tokenize source file).1.toList = tokens ++ [last])
    (stands : w.StandsAt tokens last i handed) (inText : w.StandsIn source.toList file)
    (rule : Rule) : (w.parseProgram rule).2.Drained source.toList file := by
  obtain ⟨init, same, _⟩ := (scan_tokenize source file).exists_init
  obtain ⟨_, lasts⟩ := List.append_inj' (all.symm.trans same) rfl
  obtain rfl := List.singleton_inj.mp lasts
  have ahead := (stands.replay (w.programMoves rule)).ahead
  have behind := inText.replay (w.programMoves rule)
  rw [replay_programMoves] at ahead behind
  have eof : (w.parseProgram rule).2.current.kind = .eof := current_parseFrom rule #[] _
  rw [ahead.current_kind_eq_eof_iff.mp eof] at ahead
  have peek : (w.parseProgram rule).2.peek = .endBehind source.toList file := ahead.peek_eq
  refine ⟨ahead.current_eq, peek, behind.lexer.cursor_eq (behind.at_end ?_)⟩
  rw [peek]
  rfl

/-- At the end of the text a program is empty, and reading it only forgets the mismatches. -/
theorem Drained.parseProgram {w : Window} {text : List Char} {file : FileId}
    (h : w.Drained text file) (rule : Rule) :
    w.parseProgram rule =
      (⟨#[]⟩, { w with diagnostics := #[], journal := .program 0 0 :: w.journal }) := by
  have eof : w.cleared.current.kind = .eof := by
    show w.current.kind = .eof
    rw [h.current_eq]
    rfl
  rw [Window.parseProgram, parseFrom_of_eof rule #[] _ eof]
  rfl

end Window

/-- However many tokens are pulled from a lexer before, and whatever a rule does with the
window, reading a program ends. Then the window shows the end of the text twice, and the
lexer has passed every character. With any rule, a further program is empty, holds no
mismatch and leaves the window, the lexer and its diagnostics as they are. -/
theorem parseProgram_drains (source : String) (file : FileId) (recovery : Recovery) (rule : Rule)
    (pulled : Nat) :
    let start := Window.ofLexer recovery ((Lexer.ofText source file).pulled pulled)
    let read := start.parseProgram rule
    let last := Token.endBehind source.toList file
    start.parseProgramUnbounded rule = some read ∧
    (tokenize source file).1.toList.getLast? = some last ∧
    read.2.current = last ∧ read.2.peek = last ∧
    read.2.lexer.cursor.index = source.length ∧
    ∀ another : Rule,
      let again := read.2.parseProgram another
      read.2.parseProgramUnbounded another = some again ∧
      again.1 = ⟨#[]⟩ ∧ again.2.diagnostics = #[] ∧
      again.2.current = read.2.current ∧ again.2.peek = read.2.peek ∧
      again.2.lexer = read.2.lexer := by
  intro start read last
  obtain ⟨tokens, final, all, _, _⟩ := (Lexer.ofText source file).exists_stream_eq
  have stands : start.StandsAt tokens final pulled [] :=
    Window.standsAt_ofLexer ((Lexer.hasRead_ofText all).pulled pulled) recovery
  have inText : start.StandsIn source.toList file :=
    Window.standsIn_ofLexer ((Lexer.standsIn_ofText source file).pulled pulled) recovery
  have drained : read.2.Drained source.toList file :=
    Window.drained_parseProgram all stands inText rule
  refine ⟨start.parseProgramUnbounded_eq rule, ?_, drained.current_eq, drained.peek_eq, ?_, ?_⟩
  · obtain ⟨init, same, _⟩ := (scan_tokenize source file).exists_init
    rw [same, List.nil_append, List.getLast?_concat]
  · rw [drained.cursor_eq]
    exact String.length_toList
  · intro another again
    have same := drained.parseProgram another
    refine ⟨read.2.parseProgramUnbounded_eq another, ?_⟩
    simp only [again, same, and_self]

end Monkey
