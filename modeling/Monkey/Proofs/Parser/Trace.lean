import Monkey.Proofs.Parser.Moves

/-! # The moves of a run, one by one

The loop of a parser and its statements make three moves of their own accord: a step, a record
of a mismatch, and an entry of the journal. All others are asked for by the rule. So a property
of moves holds along a whole run when it holds of those three and of what the rule asks for. -/

namespace Monkey

namespace Window

/-- Each of the moves has a property at the window that it is made from. -/
def Each (P : Window → Move → Prop) (w : Window) : List Move → Prop
  | [] => True
  | m :: moves => P w m ∧ (w.move m).Each P moves

variable {P : Window → Move → Prop}

theorem each_append {w : Window} {moves more : List Move} :
    w.Each P (moves ++ more) ↔ w.Each P moves ∧ (w.replay moves).Each P more := by
  induction moves generalizing w with
  | nil => simp [Each]
  | cons m moves ih => simp [Each, ih, and_assoc]

/-- A property of the move alone holds of each move in the list. -/
theorem each_iff_forall_mem {Q : Move → Prop} {w : Window} {moves : List Move} :
    w.Each (fun _ m => Q m) moves ↔ ∀ m ∈ moves, Q m := by
  induction moves generalizing w with
  | nil => simp [Each]
  | cons m moves ih => simp [Each, ih]

theorem Each.imp {Q : Window → Move → Prop} (weaker : ∀ w m, P w m → Q w m) {w : Window}
    {moves : List Move} (h : w.Each P moves) : w.Each Q moves := by
  induction moves generalizing w with
  | nil => trivial
  | cons m moves ih => exact ⟨weaker w m h.1, ih h.2⟩

/-- The property holds of the moves that no rule has to ask for. -/
structure HoldsUnasked (P : Window → Move → Prop) : Prop where
  next : ∀ w, P w .next
  miss : ∀ (w : Window) kind, w.peek.kind ≠ kind → P w (.miss kind)
  log : ∀ w event, P w (.log event)

end Window

open Window

/-- The property holds of what the script asks for, whatever it sees: the diagnostics that it
takes, and the fresh start of each program that it reads. -/
def Script.AsksFor (P : Window → Move → Prop) : Script → Prop
  | .done _ => True
  | .next rest => ∀ w, (rest w).AsksFor P
  | .expect _ rest => ∀ met w, (rest met w).AsksFor P
  | .sweep rest => ∀ passed w, (rest passed w).AsksFor P
  | .takeDiagnostics rest => (∀ w, P w .takeDiagnostics) ∧ ∀ taken w, (rest taken w).AsksFor P
  | .takeLexerDiagnostics rest =>
    (∀ w, P w .takeLexerDiagnostics) ∧ ∀ taken w, (rest taken w).AsksFor P
  | .parseProgram rest => (∀ w, P w .clear) ∧ ∀ program w, (rest program w).AsksFor P

def Rule.AsksFor (P : Window → Move → Prop) (rule : Rule) : Prop := ∀ w, (rule w).AsksFor P

/-- Of the standard rules only one asks for a fresh start, and none takes diagnostics. -/
theorem StandardRule.asksFor {P : Window → Move → Prop} (s : StandardRule)
    (begins : s = .nested → ∀ w, P w .clear) : s.rule.AsksFor P := by
  intro w
  cases s with
  | skip | nothing | refuse | any | last => simp [StandardRule.rule, Rule.skip, Rule.nothing,
      Rule.refuse, Rule.any, Rule.last, Script.AsksFor]
  | name =>
    simp only [StandardRule.rule, Rule.name]
    split <;> simp [Rule.skip, Script.AsksFor]
  | single =>
    simp only [StandardRule.rule, Rule.single]
    split <;> simp [Script.AsksFor]
  | parenthesized =>
    simp only [StandardRule.rule, Rule.parenthesized]
    split
    · intro named inner
      cases named <;> simp [Script.AsksFor]
    · simp [Rule.skip, Script.AsksFor]
  | nested =>
    simp only [StandardRule.rule, Rule.nested]
    split
    · exact fun _ => ⟨begins rfl, fun _ _ => trivial⟩
    · simp [Rule.skip, Script.AsksFor]

section

variable {P : Window → Move → Prop} (unasked : HoldsUnasked P)

include unasked

namespace Window

theorem each_expectMove (w : Window) (kind : Kind) : P w (w.expectMove kind) := by
  unfold expectMove
  split
  · exact unasked.next w
  · rename_i other
    exact unasked.miss w kind other

theorem each_replicate_next (w : Window) (n : Nat) : w.Each P (List.replicate n .next) := by
  induction n generalizing w with
  | zero => trivial
  | succ n ih => exact ⟨unasked.next w, ih w.next⟩

theorem each_sweepMoves (w : Window) : w.Each P w.sweepMoves := each_replicate_next unasked w _

theorem each_recoverMoves (w : Window) : w.Each P w.recoverMoves := by
  unfold recoverMoves
  split
  · trivial
  · exact each_append.mpr ⟨each_sweepMoves unasked w, unasked.log _ _, trivial⟩

theorem each_leaveMoves (attempt : Attempt) (w : Window) : w.Each P (attempt.leaveMoves w) := by
  cases attempt with
  | parsed => exact ⟨unasked.log _ _, unasked.next _, trivial⟩
  | nothing => exact ⟨unasked.next _, trivial⟩
  | failed => exact each_append.mpr ⟨each_recoverMoves unasked w, unasked.next _, trivial⟩

end Window

theorem Script.each_moves {bound : Nat}
    {inner : (w : Window) → w.remaining < bound → Within Program bound}
    {innerMoves : (w : Window) → w.remaining < bound → List Move}
    (same : ∀ w h, w.replay (innerMoves w h) = (inner w h).window)
    (programs : (∀ w, P w .clear) → ∀ (w : Window) h, w.Each P (innerMoves w h)) {script : Script}
    (asks : script.AsksFor P) (w : Window) (h : w.remaining < bound) :
    w.Each P (script.moves inner innerMoves w h) := by
  induction script generalizing w with
  | done => trivial
  | next rest ih => exact ⟨unasked.next w, ih _ (asks _) _ _⟩
  | expect kind rest ih =>
    refine ⟨each_expectMove unasked w kind, ?_⟩
    rw [move_expectMove]
    exact ih _ _ (asks _ _) _ _
  | sweep rest ih =>
    refine each_append.mpr ⟨each_sweepMoves unasked w, ?_⟩
    rw [replay_sweepMoves]
    exact ih _ _ (asks _ _) _ _
  | takeDiagnostics rest ih => exact ⟨asks.1 w, ih _ _ (asks.2 _ _) _ _⟩
  | takeLexerDiagnostics rest ih => exact ⟨asks.1 w, ih _ _ (asks.2 _ _) _ _⟩
  | parseProgram rest ih =>
    refine each_append.mpr ⟨programs asks.1 w h, ?_⟩
    rw [same]
    exact ih _ _ (asks.2 _ _) _ _

namespace Window

section

variable {rule : Rule} (asks : rule.AsksFor P)

include asks

theorem each_expressionMoves {bound : Nat}
    {inner : (w : Window) → w.remaining < bound → Within Program bound}
    {innerMoves : (w : Window) → w.remaining < bound → List Move}
    (same : ∀ w h, w.replay (innerMoves w h) = (inner w h).window)
    (programs : (∀ w, P w .clear) → ∀ (w : Window) h, w.Each P (innerMoves w h)) (w : Window)
    (h : w.remaining < bound) : w.Each P (expressionMoves rule inner innerMoves w h) := by
  refine each_append.mpr ⟨Script.each_moves unasked same programs (asks w) w h, ?_⟩
  split
  · trivial
  · split
    · exact ⟨unasked.next _, trivial⟩
    · trivial

theorem each_statementMoves {w : Window} (more : w.current.kind ≠ .eof)
    {inner : (q : Window) → q.remaining < w.remaining → Within Program w.remaining}
    {innerMoves : (q : Window) → q.remaining < w.remaining → List Move}
    (same : ∀ q below, q.replay (innerMoves q below) = (inner q below).window)
    (programs : (∀ q, P q .clear) → ∀ (q : Window) below, q.Each P (innerMoves q below)) :
    w.Each P (w.statementMoves rule more inner innerMoves) := by
  have value := each_expressionMoves unasked asks same programs
  unfold statementMoves letMoves
  split
  · by_cases named : w.peek.kind = .ident
    · by_cases bound : w.next.peek.kind = .assign
      · rw [if_pos named, if_pos bound]
        exact ⟨unasked.next _, unasked.next _, unasked.next _, value _ _⟩
      · rw [if_pos named, if_neg bound]
        exact ⟨unasked.next _, unasked.miss _ _ bound, trivial⟩
    · rw [if_neg named]
      exact ⟨unasked.miss _ _ named, trivial⟩
  · exact ⟨unasked.next _, value _ _⟩
  · trivial

/-- Along the loop a property holds of each move when it holds of those that no rule has to ask
for and of what the rule asks for. -/
theorem each_movesFrom (statements : Array Statement) (w : Window) :
    w.Each P (w.movesFrom rule statements) := by
  fun_induction movesFrom rule statements w with
  | case1 => exact ⟨unasked.log _ _, trivial⟩
  | case2 statements w more read programs rest =>
    have same : ∀ (q : Window) (below : q.remaining < w.remaining),
        q.replay (.clear :: q.cleared.movesFrom rule #[]) =
          (parseFrom rule #[] q.cleared below).window :=
      fun q below => q.cleared.replay_movesFrom rule #[] below
    refine each_append.mpr ⟨?_, ?_⟩
    · refine each_statementMoves unasked asks more same fun clear q below => ?_
      exact ⟨clear q, programs q below⟩
    · rw [w.replay_statementMoves rule more same]
      refine each_append.mpr ⟨each_leaveMoves unasked _ _, ?_⟩
      rw [Attempt.replay_leaveMoves]
      exact rest

/-- Reading a program makes a fresh start, and then the moves of the loop. -/
theorem each_programMoves (w : Window) : w.cleared.Each P (w.programMoves rule).tail :=
  each_movesFrom unasked asks #[] w.cleared

end

end Window

end

/-! ## Any run -/

/-- A mismatch is there to be recorded; all other moves can always be made. -/
def Window.Allows (w : Window) : Move → Prop
  | .miss kind => w.peek.kind ≠ kind
  | .next | .clear | .takeDiagnostics | .takeLexerDiagnostics | .log _ => True

theorem Window.holdsUnasked_allows : HoldsUnasked Allows :=
  ⟨fun _ => trivial, fun _ _ other => other, fun _ _ => trivial⟩

theorem Script.asksFor_allows (script : Script) : script.AsksFor Allows := by
  induction script with
  | done => trivial
  | next rest ih => exact ih
  | expect kind rest ih => exact ih
  | sweep rest ih => exact ih
  | takeDiagnostics rest ih => exact ⟨fun _ => trivial, ih⟩
  | takeLexerDiagnostics rest ih => exact ⟨fun _ => trivial, ih⟩
  | parseProgram rest ih => exact ⟨fun _ => trivial, ih⟩

namespace Parser

theorem each_allows_moves (p : Parser) (request : Request) :
    p.window.Each Allows (p.moves request) := by
  cases request with
  | expect kind => exact ⟨each_expectMove holdsUnasked_allows _ kind, trivial⟩
  | skipValue => exact each_sweepMoves holdsUnasked_allows _
  | parseProgram =>
    exact ⟨trivial, each_programMoves holdsUnasked_allows (fun w => (p.rule w).asksFor_allows) _⟩
  | next | takeDiagnostics | takeLexerDiagnostics => exact ⟨trivial, trivial⟩
  | currentIs | peekIs | errors | diagnostics | lexerDiagnostics | recovery | setRule =>
    exact trivial

/-- Whatever is asked of a parser, it records mismatches only where there are some. -/
theorem each_allows_movesOver (p : Parser) (requests : List Request) :
    p.window.Each Allows (p.movesOver requests) := by
  induction requests generalizing p with
  | nil => trivial
  | cons request requests ih =>
    refine each_append.mpr ⟨p.each_allows_moves request, ?_⟩
    rw [replay_moves]
    exact ih _

end Parser

end Monkey
