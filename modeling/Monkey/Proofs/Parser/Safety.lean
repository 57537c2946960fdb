import Monkey.Proofs.Diagnostic.Underflow
import Monkey.Proofs.Lexer.Machine
import Monkey.Proofs.Parser.Draining
import Monkey.Proofs.Parser.Provenance

/-! # Reading without faults

A whole run of a parser, with each token read in machine words. Main statement: on a text of
at most `2 ^ 32 - 2` characters the run has no fault, the statements that it gives have spans,
and each diagnostic that it holds on its way can be shown. -/

namespace Monkey

namespace Window

/-! ## Runs in machine words -/

/-- A window over the next two tokens of a lexer, which are read in words. -/
def ofLexerInWords (source : String) (recovery : Recovery) (lexer : Lexer) :
    Except Fault Window := do
  let first ← lexer.nextInWords source
  let second ← first.2.nextInWords source
  return {
    lexer := second.2
    current := first.1
    peek := second.1
    recovery
    diagnostics := #[]
    journal := [.token second.1, .token first.1] }

/-- Only a step forward reads a token. -/
def moveInWords (source : String) (w : Window) : Move → Except Fault Window
  | .next => do
    let read ← w.lexer.nextInWords source
    return { w with
      lexer := read.2
      current := w.peek
      peek := read.1
      journal := .token read.1 :: w.journal }
  | .miss kind => return w.move (.miss kind)
  | .clear => return w.move .clear
  | .takeDiagnostics => return w.move .takeDiagnostics
  | .takeLexerDiagnostics => return w.move .takeLexerDiagnostics
  | .log event => return w.move (.log event)

def replayInWords (source : String) (w : Window) (moves : List Move) : Except Fault Window :=
  moves.foldlM (moveInWords source) w

section

variable {source : String} {file : FileId} (short : source.length ≤ Position.textLimit)

include short

theorem ofLexerInWords_eq {lexer : Lexer} (h : lexer.StandsIn source.toList file)
    (recovery : Recovery) :
    ofLexerInWords source recovery lexer = .ok (ofLexer recovery lexer) := by
  simp only [ofLexerInWords, h.nextInWords_eq short, bind, Except.bind,
    h.next.nextInWords_eq short]
  rfl

theorem moveInWords_eq {w : Window} (h : w.lexer.StandsIn source.toList file) (m : Move) :
    w.moveInWords source m = .ok (w.move m) := by
  cases m with
  | next =>
    simp only [moveInWords, h.nextInWords_eq short, bind, Except.bind]
    rfl
  | miss | clear | takeDiagnostics | takeLexerDiagnostics | log => rfl

theorem replayInWords_eq {w : Window} (h : w.StandsIn source.toList file) (moves : List Move) :
    w.replayInWords source moves = .ok (w.replay moves) := by
  induction moves generalizing w with
  | nil => rfl
  | cons m moves ih =>
    rw [replayInWords, List.foldlM_cons, moveInWords_eq short h.lexer m]
    exact ih (h.move m)

end

end Window

/-! ## Spans of statements -/

/-- Tokens of one file are merged into a span. -/
theorem Statement.exists_span {s : Statement} (file : FileId)
    (h : ∀ t ∈ s.tokens, t.span.file = file) : ∃ span, s.span = .ok span := by
  have merges : ∀ a b : Token, a ∈ s.tokens → b ∈ s.tokens → ∃ span, a.span.merge b.span = .ok span :=
    fun a b left right => ⟨_, if_pos ((h a left).trans (h b right).symm)⟩
  cases s with
  | letBinding keyword name value =>
    cases value with
    | none => exact merges _ _ (by simp [tokens]) (by simp [tokens])
    | some value =>
      cases value with
      | identifier value =>
        exact merges keyword value.token (by simp [tokens]) (by simp [tokens, Expression.tokens])
  | returning keyword value =>
    cases value with
    | none => exact ⟨_, rfl⟩
    | some value =>
      cases value with
      | identifier value =>
        exact merges keyword value.token (by simp [tokens]) (by simp [tokens, Expression.tokens])

/-! ## Whole texts -/

/-- Nothing goes wrong in reading a text of at most `2 ^ 32 - 2` characters with a standard rule.
No counter overflows its word and no slice cuts a character, however many tokens are pulled
and all along the run of the parser. The statements of the program have spans, since all
their tokens are of the one file. Whatever diagnostics the parser holds on its way, each of
them can be shown, against any files. -/
theorem parse_without_faults {source : String} (short : source.length ≤ 2 ^ 32 - 2) (file : FileId)
    (recovery : Recovery) (rule : StandardRule) :
    let lexer := Lexer.ofText source file
    let start := Window.ofLexer recovery lexer
    let moves := start.programMoves rule.rule
    let read := readWith rule.rule source file recovery
    (∀ k, lexer.pulledInWords source k = .ok (lexer.pulled k)) ∧
    Window.ofLexerInWords source recovery lexer = .ok start ∧
    start.replayInWords source moves = .ok read.2 ∧
    (∀ s ∈ read.1.statements, ∃ span, s.span = .ok span) ∧
    ∀ done, done <+: moves → ∀ d ∈ (start.replay done).allDiagnostics,
      ∀ (cache : SourceCache) (colored : Bool), ∃ text, d.render cache colored = .ok text := by
  intro lexer start moves read
  have stands : lexer.StandsIn source.toList file := Lexer.standsIn_ofText source file
  obtain ⟨tokens, last, all, _, _⟩ := lexer.exists_stream_eq
  have place : start.StandsAt tokens last 0 [] :=
    Window.standsAt_ofLexer (Lexer.hasRead_ofText all) recovery
  refine ⟨stands.pulledInWords_eq short, Window.ofLexerInWords_eq short stands recovery, ?_, ?_, ?_⟩
  · have run := Window.replayInWords_eq short (Window.standsIn_ofLexer stands recovery) moves
    rwa [Window.replay_programMoves] at run
  · intro s mem
    apply Statement.exists_span file
    intro t inside
    apply Token.file_eq
    apply mem_tokenize_of_mem_tokens rule
    exact List.mem_flatMap.mpr ⟨s, Array.mem_toList_iff.mpr mem, inside⟩
  · intro done _ d mem cache colored
    have held := place.mismatchesOf_replay (fun _ mem => absurd mem List.not_mem_nil) done
    have about := (place.replay done).about_of_mem all held mem
    exact about.staysOnLines.exists_render cache colored

/-- A program in the middle of a value, with a character of two bytes behind it. -/
theorem parse_without_faults_nested :
    let source := "let a = \x7blet b = c; §"
    let start := Window.ofLexer .synchronize (.ofText source 7)
    let read := readWith Rule.nested source 7 .synchronize
    source.length ≤ 2 ^ 32 - 2 ∧
      start.replayInWords source (start.programMoves Rule.nested) = .ok read.2 ∧
      read.1.statements.size = 1 ∧ (∀ s ∈ read.1.statements, ∃ span, s.span = .ok span) ∧
      read.2.allDiagnostics.size = 1 ∧
      ∀ d ∈ read.2.allDiagnostics, ∃ text, d.render .empty false = .ok text := by
  intro source start read
  have short : source.length ≤ 2 ^ 32 - 2 := by decide
  obtain ⟨_, _, run, spans, shown⟩ := parse_without_faults short 7 .synchronize .nested
  refine ⟨short, run, by decide +kernel, spans, by decide +kernel, fun d mem => ?_⟩
  refine shown _ List.prefix_rfl d ?_ .empty false
  rw [Window.replay_programMoves]
  exact mem

end Monkey
