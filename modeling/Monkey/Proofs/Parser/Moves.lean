import Monkey.Parser.Basic
import Monkey.Proofs.Parser.Follows

/-! # Moves of a parser

Whatever a parser does to its window comes down to a few elementary moves. The moves of
each run are listed beside it, and replaying them from the first window of the run leads to
the last one. So what each move keeps, each run keeps, whatever the rule for its values. -/

namespace Monkey

/-- An elementary move of a window. -/
inductive Move where
  | next
  /-- Records that the next token is not of the expected kind. -/
  | miss (kind : Kind)
  | clear
  | takeDiagnostics
  | takeLexerDiagnostics
  | log (event : Event)

namespace Window

def move (w : Window) : Move → Window
  | .next => w.next
  | .miss kind => { w with diagnostics := w.diagnostics.push (w.unexpected kind) }
  | .clear => w.cleared
  | .takeDiagnostics => w.takeDiagnostics.2
  | .takeLexerDiagnostics => w.takeLexerDiagnostics.2
  | .log event => w.log event

/-- Makes moves one after the other. -/
def replay (w : Window) (moves : List Move) : Window := moves.foldl move w

@[simp] theorem replay_nil (w : Window) : w.replay [] = w := rfl

@[simp] theorem replay_cons (w : Window) (m : Move) (moves : List Move) :
    w.replay (m :: moves) = (w.move m).replay moves := rfl

@[simp] theorem replay_append (w : Window) (moves more : List Move) :
    w.replay (moves ++ more) = (w.replay moves).replay more :=
  List.foldl_append

/-- What moves come to one after the other, each at the window that it is made from. -/
def collect {α : Type} (yields : Window → Move → List α) (w : Window) : List Move → List α
  | [] => []
  | m :: moves => yields w m ++ (w.move m).collect yields moves

theorem collect_append {α : Type} (yields : Window → Move → List α) (w : Window)
    (moves more : List Move) :
    w.collect yields (moves ++ more) =
      w.collect yields moves ++ (w.replay moves).collect yields more := by
  induction moves generalizing w with
  | nil => rfl
  | cons m moves ih => rw [List.cons_append, collect, ih, collect, List.append_assoc, replay_cons]

/-! ## Expecting, sweeping and recovering -/

def expectMove (w : Window) (kind : Kind) : Move :=
  if w.peek.kind = kind then .next else .miss kind

theorem move_miss_of_ne {w : Window} {kind : Kind} (h : w.peek.kind ≠ kind) :
    w.move (.miss kind) = (w.expect kind).2 := by
  rw [expect_of_ne h]
  rfl

theorem move_expectMove (w : Window) (kind : Kind) :
    w.move (w.expectMove kind) = (w.expect kind).2 := by
  by_cases h : w.peek.kind = kind
  · rw [expectMove, if_pos h, expect_of_eq h]
    rfl
  · rw [expectMove, if_neg h, move_miss_of_ne h]

/-- A sweep is one step for each token that it passes. -/
def sweepMoves (w : Window) : List Move := List.replicate w.sweep.1.size .next

theorem exists_replay_sweepFrom (passed : Array Token) (w : Window) :
    ∃ n, (w.sweepFrom passed).1.size = passed.size + n ∧
      w.replay (List.replicate n .next) = (w.sweepFrom passed).2 := by
  fun_induction sweepFrom passed w with
  | case1 => exact ⟨0, rfl, rfl⟩
  | case2 passed w _ ih =>
    obtain ⟨n, size, replay⟩ := ih
    refine ⟨n + 1, ?_, replay⟩
    rw [size, Array.size_push]
    omega

theorem replay_sweepMoves (w : Window) : w.replay w.sweepMoves = w.sweep.2 := by
  obtain ⟨n, size, replay⟩ := exists_replay_sweepFrom #[] w
  have count : w.sweep.1.size = n := by simpa [sweep] using size
  rw [sweepMoves, count]
  exact replay

def recoverMoves (w : Window) : List Move :=
  match w.recovery with
  | .skipToken => []
  | .synchronize => w.sweepMoves ++ [.log (.resynchronized w.sweep.1.size)]

theorem replay_recoverMoves (w : Window) : w.replay w.recoverMoves = w.recover := by
  cases mode : w.recovery with
  | skipToken => simp only [recoverMoves, recover, mode, replay_nil]
  | synchronize =>
    simp only [recoverMoves, recover, mode, replay_append, replay_sweepMoves]
    rfl

end Window

open Window

/-! ## Scripts -/

section

variable {w : Window} {bound : Nat} (h : w.remaining < bound)

include h

theorem Window.remaining_next_lt_bound : w.next.remaining < bound :=
  Nat.lt_of_le_of_lt w.remaining_next_le h

theorem Window.remaining_expect_lt_bound (kind : Kind) : (w.expect kind).2.remaining < bound :=
  Nat.lt_of_le_of_lt (w.remaining_expect_le kind) h

theorem Window.remaining_sweep_lt_bound : w.sweep.2.remaining < bound :=
  Nat.lt_of_le_of_lt w.remaining_sweep_le h

end

/-- The moves of a script, given those of the programs that it reads. -/
def Script.moves {bound : Nat}
    (inner : (w : Window) → w.remaining < bound → Within Program bound)
    (innerMoves : (w : Window) → w.remaining < bound → List Move) :
    Script → (w : Window) → w.remaining < bound → List Move
  | .done _, _, _ => []
  | .next rest, w, h =>
    .next :: (rest w.next).moves inner innerMoves w.next (remaining_next_lt_bound h)
  | .expect kind rest, w, h =>
    let met := w.expect kind
    w.expectMove kind :: (rest met.1 met.2).moves inner innerMoves met.2
      (remaining_expect_lt_bound h kind)
  | .sweep rest, w, h =>
    let swept := w.sweep
    w.sweepMoves ++ (rest swept.1 swept.2).moves inner innerMoves swept.2
      (remaining_sweep_lt_bound h)
  | .takeDiagnostics rest, w, h =>
    let taken := w.takeDiagnostics
    .takeDiagnostics :: (rest taken.1 taken.2).moves inner innerMoves taken.2 h
  | .takeLexerDiagnostics rest, w, h =>
    let taken := w.takeLexerDiagnostics
    .takeLexerDiagnostics :: (rest taken.1 taken.2).moves inner innerMoves taken.2 h
  | .parseProgram rest, w, h =>
    let parsed := inner w h
    innerMoves w h ++ (rest parsed.value parsed.window).moves inner innerMoves parsed.window
      parsed.remaining_lt

theorem Script.replay_moves {bound : Nat}
    {inner : (w : Window) → w.remaining < bound → Within Program bound}
    {innerMoves : (w : Window) → w.remaining < bound → List Move}
    (same : ∀ w h, w.replay (innerMoves w h) = (inner w h).window) (script : Script)
    (w : Window) (h : w.remaining < bound) :
    w.replay (script.moves inner innerMoves w h) = (script.run inner w h).window := by
  induction script generalizing w with
  | done => rfl
  | next rest ih => exact ih _ w.next _
  | expect kind rest ih =>
    rw [Script.moves, replay_cons, move_expectMove]
    exact ih _ _ _ _
  | sweep rest ih =>
    rw [Script.moves, replay_append, replay_sweepMoves]
    exact ih _ _ _ _
  | takeDiagnostics rest ih => exact ih _ _ _ _
  | takeLexerDiagnostics rest ih => exact ih _ _ _ _
  | parseProgram rest ih =>
    rw [Script.moves, replay_append, same]
    exact ih _ _ _ _

namespace Window

/-! ## Statements -/

section

variable (rule : Rule) {bound : Nat}
  (inner : (w : Window) → w.remaining < bound → Within Program bound)
  (innerMoves : (w : Window) → w.remaining < bound → List Move)

/-- The moves of a value, and the step onto the semicolon behind it. -/
def expressionMoves (w : Window) (h : w.remaining < bound) : List Move :=
  let read := (rule w).run inner w h
  (rule w).moves inner innerMoves w h ++
    match read.value with
    | .abandoned => []
    | .value _ => if read.window.peek.kind = .semicolon then [.next] else []

variable {inner innerMoves} (same : ∀ w h, w.replay (innerMoves w h) = (inner w h).window)

include same

theorem replay_expressionMoves (w : Window) (h : w.remaining < bound) :
    w.replay (expressionMoves rule inner innerMoves w h) =
      (expression rule inner w h).window := by
  have value := (rule w).replay_moves same w h
  unfold expressionMoves expression
  rw [replay_append, value]
  cases read : ((rule w).run inner w h).value with
  | abandoned => simp only [read, replay_nil]
  | value =>
    simp only [read]
    split <;> rfl

end

section

variable (rule : Rule) (w : Window) (h : w.current.kind ≠ .eof)
  (inner : (q : Window) → q.remaining < w.remaining → Within Program w.remaining)
  (innerMoves : (q : Window) → q.remaining < w.remaining → List Move)

theorem remaining_body_lt {w : Window} (h : w.current.kind ≠ .eof) :
    w.next.next.next.remaining < w.remaining :=
  Nat.lt_of_le_of_lt (Nat.le_trans (remaining_next_le _) (remaining_next_le _))
    (remaining_next_lt h)

def letMoves : List Move :=
  if w.peek.kind = .ident then
    if w.next.peek.kind = .assign then
      .next :: .next :: .next ::
        expressionMoves rule inner innerMoves w.next.next.next (remaining_body_lt h)
    else [.next, .miss .assign]
  else [.miss .ident]

def statementMoves : List Move :=
  match w.current.kind with
  | .letWord => w.letMoves rule h inner innerMoves
  | .returnWord => .next :: expressionMoves rule inner innerMoves w.next (remaining_next_lt h)
  | _ => []

variable {inner innerMoves}
  (same : ∀ q below, q.replay (innerMoves q below) = (inner q below).window)

include same

theorem replay_letMoves :
    w.replay (w.letMoves rule h inner innerMoves) = (w.letBinding rule h inner).window := by
  unfold letMoves letBinding
  by_cases named : w.peek.kind = .ident
  · rw [if_pos named, dif_pos named]
    by_cases bound : w.next.peek.kind = .assign
    · rw [if_pos bound, dif_pos bound]
      exact replay_expressionMoves rule same _ _
    · rw [if_neg bound, dif_neg bound]
      exact move_miss_of_ne bound
  · rw [if_neg named, dif_neg named]
    exact move_miss_of_ne named

theorem replay_statementMoves :
    w.replay (w.statementMoves rule h inner innerMoves) = (w.statement rule h inner).window := by
  cases word : w.current.kind with
  | letWord =>
    simp only [statementMoves, statement, word]
    exact w.replay_letMoves rule h same
  | returnWord =>
    simp only [statementMoves, statement, word]
    exact replay_expressionMoves rule same _ _
  | _ => simp only [statementMoves, statement, word, replay_nil]

end

/-! ## Programs -/

/-- The moves from an attempt to the next turn. -/
def Attempt.leaveMoves : Attempt → Window → List Move
  | .parsed statement, _ => [.log (.statement statement), .next]
  | .nothing, _ => [.next]
  | .failed, w => w.recoverMoves ++ [.next]

theorem Attempt.replay_leaveMoves (attempt : Attempt) (w : Window) :
    w.replay (attempt.leaveMoves w) = attempt.leave w := by
  cases attempt with
  | parsed | nothing => rfl
  | failed =>
    rw [leaveMoves, replay_append, replay_recoverMoves]
    rfl

/-- The moves of the loop. -/
def movesFrom (rule : Rule) (statements : Array Statement) (w : Window) : List Move :=
  if more : w.current.kind = .eof then [.log (.program statements.size w.diagnostics.size)]
  else
    let read := w.statement rule more fun q below => parseFrom rule #[] q.cleared below
    w.statementMoves rule more (fun q below => parseFrom rule #[] q.cleared below)
        (fun q _ => .clear :: movesFrom rule #[] q.cleared) ++
      (read.value.leaveMoves read.window ++
        movesFrom rule (statements ++ read.value.statement.toList.toArray)
          (read.value.leave read.window))
termination_by w.remaining
decreasing_by
  · rename_i below
    exact below
  · exact Nat.lt_of_le_of_lt (Attempt.remaining_leave_le _ _) (Poised.remaining_next_lt _)

theorem replay_movesFrom (rule : Rule) {bound : Nat} (statements : Array Statement) {w : Window}
    (h : w.remaining < bound) :
    w.replay (w.movesFrom rule statements) = (parseFrom rule statements w h).window := by
  refine parseFrom_induction rule (motive := fun statements w _ left =>
    w.replay (w.movesFrom rule statements) = left) ?_ ?_ statements h
  · intro statements w eof
    rw [movesFrom, dif_pos eof]
    rfl
  · intro statements w more program left inner read programs rest
    have clears : ∀ (q : Window) (below : q.remaining < w.remaining),
        q.replay (.clear :: q.cleared.movesFrom rule #[]) = (inner q below).window := programs
    rw [movesFrom, dif_neg more, replay_append, replay_append,
      w.replay_statementMoves rule more clears, Attempt.replay_leaveMoves]
    exact rest

def programMoves (rule : Rule) (w : Window) : List Move :=
  .clear :: w.cleared.movesFrom rule #[]

theorem replay_programMoves (rule : Rule) (w : Window) :
    w.replay (w.programMoves rule) = (w.parseProgram rule).2 :=
  replay_movesFrom rule #[] (Nat.lt_succ_self w.cleared.remaining)

end Window

/-! ## Requests -/

namespace Parser

/-- The moves with which a parser answers a request. -/
def moves (p : Parser) : Request → List Move
  | .next => [.next]
  | .expect kind => [p.window.expectMove kind]
  | .skipValue => p.window.sweepMoves
  | .parseProgram => p.window.programMoves p.rule
  | .takeDiagnostics => [.takeDiagnostics]
  | .takeLexerDiagnostics => [.takeLexerDiagnostics]
  | .currentIs _ | .peekIs _ | .errors | .diagnostics | .lexerDiagnostics | .recovery
  | .setRule _ => []

theorem replay_moves (p : Parser) (request : Request) :
    p.window.replay (p.moves request) = (p.answer request).2.window := by
  cases request with
  | expect kind => exact p.window.move_expectMove kind
  | skipValue => exact p.window.replay_sweepMoves
  | parseProgram => exact p.window.replay_programMoves p.rule
  | _ => rfl

/-- A parser behind some requests. -/
def after (p : Parser) (requests : List Request) : Parser :=
  requests.foldl (fun p request => (p.answer request).2) p

/-- The moves of all answers to some requests. -/
def movesOver (p : Parser) : List Request → List Move
  | [] => []
  | request :: requests => p.moves request ++ (p.answer request).2.movesOver requests

theorem replay_movesOver (p : Parser) (requests : List Request) :
    p.window.replay (p.movesOver requests) = (p.after requests).window := by
  induction requests generalizing p with
  | nil => rfl
  | cons request requests ih =>
    rw [movesOver, replay_append, replay_moves]
    exact ih _

theorem movesOver_append (p : Parser) (requests more : List Request) :
    p.movesOver (requests ++ more) = p.movesOver requests ++ (p.after requests).movesOver more := by
  induction requests generalizing p with
  | nil => rfl
  | cons request requests ih =>
    rw [List.cons_append, movesOver, ih, movesOver, List.append_assoc]
    rfl

end Parser

end Monkey
