import Mathlib.Data.List.Induction
import Monkey.Proofs.Parser.Ahead
import Monkey.Proofs.Parser.Trace

/-! # The ledger of mismatches

A window holds the mismatches that it has recorded since they were last forgotten: when they
were taken, or when a program was begun. Main statement: so it is at each moment of any run of
a parser, in the middle of a program or of a value too, and only an expectation that is not met
adds one. -/

namespace Monkey

/-- Taking the mismatches and beginning a program leave none. -/
def Move.forgets : Move → Bool
  | .clear | .takeDiagnostics => true
  | .next | .miss _ | .takeLexerDiagnostics | .log _ => false

namespace Window

/-- The mismatch that a move records at a window. -/
def records (w : Window) : Move → List Diagnostic
  | .miss kind => [.mismatch kind w.current w.peek]
  | .next | .clear | .takeDiagnostics | .takeLexerDiagnostics | .log _ => []

/-- The mismatches that moves record, one after the other. -/
def recorded (w : Window) (moves : List Move) : List Diagnostic := w.collect records moves

theorem recorded_append (w : Window) (moves more : List Move) :
    w.recorded (moves ++ more) = w.recorded moves ++ (w.replay moves).recorded more :=
  collect_append records w moves more

/-- A move forgets all mismatches or adds what it records to them. -/
theorem diagnostics_move (w : Window) (m : Move) :
    (w.move m).diagnostics.toList =
      if m.forgets then [] else w.diagnostics.toList ++ w.records m := by
  cases m with
  | miss kind => exact Array.toList_push
  | clear | takeDiagnostics => rfl
  | next | takeLexerDiagnostics | log => exact (List.append_nil _).symm

/-- What is held behind some moves has been recorded by the last of them, those behind the last
one that forgets. -/
def HoldsSinceForgetting (start : Window) (moves : List Move) : Prop :=
  ∃ before since, moves = before ++ since ∧ (∀ m ∈ before.getLast?, m.forgets = true) ∧
    (∀ m ∈ since, m.forgets = false) ∧
    (start.replay moves).diagnostics.toList = (start.replay before).recorded since

theorem holdsSinceForgetting {start : Window} (fresh : start.diagnostics = #[])
    (moves : List Move) : start.HoldsSinceForgetting moves := by
  induction moves using List.reverseRecOn with
  | nil =>
    refine ⟨[], [], rfl, by simp, by simp, ?_⟩
    rw [replay_nil, fresh]
    rfl
  | append_singleton moves m ih =>
    have step : (start.replay (moves ++ [m])).diagnostics.toList =
        if m.forgets then [] else
          (start.replay moves).diagnostics.toList ++ (start.replay moves).records m := by
      rw [replay_append]
      exact diagnostics_move _ m
    -- The last move that forgets is this one, or it is among those before it.
    cases forgets : m.forgets with
    | true =>
      refine ⟨moves ++ [m], [], (List.append_nil _).symm, by simp [forgets], by simp, ?_⟩
      rw [step, if_pos forgets]
      rfl
    | false =>
      obtain ⟨before, since, rfl, opens, keeps, held⟩ := ih
      refine ⟨before, since ++ [m], List.append_assoc _ _ _, opens, ?_, ?_⟩
      · intro other mem
        rcases List.mem_append.mp mem with early | last
        · exact keeps other early
        · rw [List.mem_singleton.mp last, forgets]
      · have stands : start.replay (before ++ since) = (start.replay before).replay since :=
          replay_append _ _ _
        rw [step, forgets, held, recorded_append, stands]
        simp [recorded, collect]

/-- What a move does to the mismatches. One that is recorded is what an expectation at the
window leaves, it is about the two tokens that the window shows, and it changes nothing else. -/
def Accounts (w : Window) : Move → Prop
  | .miss kind => w.peek.kind ≠ kind ∧ w.expect kind = (false, w.move (.miss kind)) ∧
    ∃ d : Diagnostic, w.move (.miss kind) = { w with diagnostics := w.diagnostics.push d } ∧
      d = .mismatch kind w.current w.peek ∧
      d.labels.map Label.span = [w.peek.span, w.current.span]
  | .clear => w.move .clear = { w with diagnostics := #[] }
  | .takeDiagnostics => w.move .takeDiagnostics = { w with diagnostics := #[] }
  | .next => (w.move .next).diagnostics = w.diagnostics
  | .takeLexerDiagnostics => (w.move .takeLexerDiagnostics).diagnostics = w.diagnostics
  | .log event => (w.move (.log event)).diagnostics = w.diagnostics

theorem Allows.accounts {w : Window} {m : Move} (allowed : w.Allows m) : w.Accounts m := by
  cases m with
  | miss kind => exact ⟨allowed, expect_of_ne allowed, _, rfl, rfl, rfl⟩
  | next | clear | takeDiagnostics | takeLexerDiagnostics | log => rfl

end Window

open Window

namespace Parser

/-- What a parser does to answer a request. Only an expectation and a program can record a
mismatch, and only a taking and the start of a program forget some: behind its start a program
does so only where the rule reads programs in the middle of values. -/
def Makes (p : Parser) : Request → List Move → Prop
  | .next, moves => moves = [.next]
  | .expect kind, moves => moves = if p.window.peek.kind = kind then [.next] else [.miss kind]
  | .skipValue, moves => ∀ m ∈ moves, m = .next
  | .parseProgram, moves => ∃ rest, moves = .clear :: rest ∧
    ∀ s : StandardRule, p.rule = s.rule → ∀ m ∈ rest, m.forgets = true → m = .clear ∧ s = .nested
  | .takeDiagnostics, moves => moves = [.takeDiagnostics]
  | .takeLexerDiagnostics, moves => moves = [.takeLexerDiagnostics]
  | .currentIs _, moves | .peekIs _, moves | .errors, moves | .diagnostics, moves
  | .lexerDiagnostics, moves | .recovery, moves | .setRule _, moves => moves = []

theorem makes_moves (p : Parser) (request : Request) : p.Makes request (p.moves request) := by
  cases request with
  | expect kind =>
    show [p.window.expectMove kind] = _
    unfold expectMove
    split <;> rfl
  | skipValue =>
    intro m mem
    exact List.eq_of_mem_replicate mem
  | parseProgram =>
    refine ⟨_, rfl, fun s rule m mem => ?_⟩
    have unasked : HoldsUnasked fun _ m => m.forgets = true → m = .clear ∧ s = .nested :=
      ⟨by simp [Move.forgets], by simp [Move.forgets], by simp [Move.forgets]⟩
    have asks : p.rule.AsksFor fun _ m => m.forgets = true → m = .clear ∧ s = .nested := by
      rw [rule]
      exact s.asksFor fun nested _ _ => ⟨rfl, nested⟩
    exact each_iff_forall_mem.mp (each_programMoves unasked asks p.window) m mem
  | next | takeDiagnostics | takeLexerDiagnostics => rfl
  | currentIs | peekIs | errors | diagnostics | lexerDiagnostics | recovery | setRule => rfl

/-- At each moment of any run a parser holds the mismatches recorded since they were last
forgotten, in their order; each is that of an expectation that was not met just then. -/
theorem mismatches_held_since_forgetting (recovery : Recovery) (lexer : Lexer) (rule : Rule)
    (requests : List Request) :
    let start : Parser := ⟨.ofLexer recovery lexer, rule⟩
    let trace := start.movesOver requests
    start.window.replay trace = (start.after requests).window ∧
    (∀ done, done <+: trace → start.window.HoldsSinceForgetting done) ∧
    start.window.Each Accounts trace ∧
    ∀ request, ∃ moves, start.movesOver (requests ++ [request]) = trace ++ moves ∧
      (start.after requests).Makes request moves := by
  intro start trace
  refine ⟨start.replay_movesOver requests, fun done _ => holdsSinceForgetting rfl done,
    (start.each_allows_movesOver requests).imp fun _ _ => Allows.accounts, fun request => ?_⟩
  refine ⟨(start.after requests).moves request, ?_, (start.after requests).makes_moves request⟩
  rw [movesOver_append]
  exact congrArg _ (List.append_nil _)

/-- A program in the middle of a value forgets the mismatch before it, and what is taken is
forgotten too. -/
theorem mismatches_held_since_forgetting_nested :
    let lexer := Lexer.ofText "let 1; let a = \x7b let b; let" 0
    let start : Parser := ⟨.ofLexer .skipToken lexer, .nested⟩
    let program := [Request.parseProgram]
    let taken := [Request.expect .plus, .takeDiagnostics, .expect .minus]
    start.movesOver program <+: start.movesOver program ∧
      (start.after program).window.diagnostics.size = 2 ∧
      start.window.HoldsSinceForgetting (start.movesOver program) ∧
      (start.after taken).window.diagnostics.size = 1 ∧
      start.window.HoldsSinceForgetting (start.movesOver taken) := by
  intro lexer start program taken
  obtain ⟨_, read, _, _⟩ := mismatches_held_since_forgetting .skipToken lexer .nested program
  obtain ⟨_, took, _, _⟩ := mismatches_held_since_forgetting .skipToken lexer .nested taken
  exact ⟨List.prefix_rfl, by decide +kernel, read _ List.prefix_rfl, by decide +kernel,
    took _ List.prefix_rfl⟩

end Parser

end Monkey
