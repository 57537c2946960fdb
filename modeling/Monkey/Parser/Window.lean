import Monkey.Program
import Monkey.Token.Lexer

/-! # The token window

The parser sees two tokens, the current one and the one behind it, and pulls the
others from the lexer on demand. What is left to read never grows, and it shrinks
with each step from a token that is not the last. -/

namespace Monkey

/-- What happens after a statement that fails: one token is passed over, or all up
to the next semicolon. -/
inductive Recovery where
  | skipToken
  | synchronize
deriving DecidableEq, Inhabited

/-- What the parser reports about its own course. -/
inductive Event where
  | token (token : Token)
  | statement (statement : Statement)
  | resynchronized (skipped : Nat)
  | program (statements errors : Nat)

structure Window where
  lexer : Lexer
  current : Token
  peek : Token
  recovery : Recovery
  /-- The mismatches found since the latest program was begun. -/
  diagnostics : Diagnostics
  /-- What has happened, the latest event first. -/
  journal : List Event

namespace Window

/-- A window over the next two tokens of a lexer. -/
def ofLexer (recovery : Recovery) (lexer : Lexer) : Window :=
  let first := lexer.next
  let second := first.2.next
  { lexer := second.2
    current := first.1
    peek := second.1
    recovery
    diagnostics := #[]
    journal := [.token second.1, .token first.1] }

def log (w : Window) (event : Event) : Window :=
  { w with journal := event :: w.journal }

/-- Moves one token forward. -/
def next (w : Window) : Window :=
  let read := w.lexer.next
  { w with
    lexer := read.2
    current := w.peek
    peek := read.1
    journal := .token read.1 :: w.journal }

/-! ## Expecting a kind -/

/-- Advice for the two places of a binding where a token is often forgotten. -/
def expectedHelp : (expected after : Kind) → Option String
  | .ident, .letWord => some "a binding needs a name: `let <name> = <value>;`"
  | .assign, .ident => some "bind a value with `=`: `let <name> = <value>;`"
  | _, _ => none

/-- The diagnostic for a token that is not of the expected kind. -/
def unexpected (w : Window) (expected : Kind) : Diagnostic where
  code := some .unexpectedToken
  message :=
    s!"expected next token to be `{expected.text}`, got `{w.peek.kind.text}` instead"
  labels := [
    ⟨w.peek.span, s!"found: {w.peek.kind.text}", true⟩,
    ⟨w.current.span, s!"after `{w.current.literal}`", false⟩]
  notes := if w.peek.isIllegal then [s!"`{w.peek.literal}` is not a valid token"] else []
  help := (expectedHelp expected w.current.kind).toList

/-- Moves forward if the next token is of the given kind; otherwise records a
mismatch and stays. -/
def expect (w : Window) (kind : Kind) : Bool × Window :=
  if w.peek.kind = kind then (true, w.next)
  else (false, { w with diagnostics := w.diagnostics.push (w.unexpected kind) })

def takeDiagnostics (w : Window) : Diagnostics × Window :=
  (w.diagnostics, { w with diagnostics := #[] })

def takeLexerDiagnostics (w : Window) : Diagnostics × Window :=
  (w.lexer.diagnostics, { w with lexer := w.lexer.takeDiagnostics.2 })

/-! ## What is left to read -/

/-- The characters before the lexer and the tokens of the window, without the end. -/
def remaining (w : Window) : Nat :=
  w.lexer.cursor.rest.length + w.current.weight + w.peek.weight

theorem remaining_next_add (w : Window) :
    w.next.remaining + w.current.weight ≤ w.remaining := by
  have shorter := w.lexer.length_rest_next
  simp only [remaining, next]
  omega

theorem remaining_next_le (w : Window) : w.next.remaining ≤ w.remaining :=
  Nat.le_trans (Nat.le_add_right _ _) w.remaining_next_add

theorem remaining_next_lt {w : Window} (h : w.current.kind ≠ .eof) :
    w.next.remaining < w.remaining := by
  have step := w.remaining_next_add
  rw [Token.weight_of_ne h] at step
  exact step

@[simp] theorem remaining_log (w : Window) (event : Event) :
    (w.log event).remaining = w.remaining := rfl

@[simp] theorem remaining_next_log (w : Window) (event : Event) :
    (w.log event).next.remaining = w.next.remaining := rfl

theorem expect_of_eq {w : Window} {kind : Kind} (h : w.peek.kind = kind) :
    w.expect kind = (true, w.next) := if_pos h

theorem expect_of_ne {w : Window} {kind : Kind} (h : w.peek.kind ≠ kind) :
    w.expect kind =
      (false, { w with diagnostics := w.diagnostics.push (w.unexpected kind) }) := if_neg h

theorem remaining_expect_le (w : Window) (kind : Kind) :
    (w.expect kind).2.remaining ≤ w.remaining := by
  by_cases h : w.peek.kind = kind
  · rw [expect_of_eq h]
    exact w.remaining_next_le
  · rw [expect_of_ne h]
    exact Nat.le_refl _

/-! ## Passing over tokens -/

/-- Moves to the next semicolon or to the end and collects the tokens passed over. -/
def sweepFrom (passed : Array Token) (w : Window) : Array Token × Window :=
  if w.current.kind = .semicolon ∨ w.current.kind = .eof then (passed, w)
  else sweepFrom (passed.push w.current) w.next
termination_by w.remaining
decreasing_by
  rename_i more
  exact remaining_next_lt fun h => more (Or.inr h)

def sweep (w : Window) : Array Token × Window := w.sweepFrom #[]

theorem remaining_sweepFrom_le (passed : Array Token) (w : Window) :
    (w.sweepFrom passed).2.remaining ≤ w.remaining := by
  fun_induction sweepFrom passed w with
  | case1 => exact Nat.le_refl _
  | case2 passed w _ ih => exact Nat.le_trans ih w.remaining_next_le

theorem remaining_sweep_le (w : Window) : w.sweep.2.remaining ≤ w.remaining :=
  remaining_sweepFrom_le #[] w

/-- A sweep stays or goes through the next token. -/
theorem remaining_next_sweep_le (w : Window) :
    w.sweep.2.next.remaining ≤ w.next.remaining := by
  rw [sweep, sweepFrom]
  split
  · exact Nat.le_refl _
  · exact Nat.le_trans (remaining_next_le _) (remaining_sweepFrom_le _ _)

/-- Leaves a statement that failed. -/
def recover (w : Window) : Window :=
  match w.recovery with
  | .skipToken => w
  | .synchronize => w.sweep.2.log (.resynchronized w.sweep.1.size)

theorem remaining_next_recover_le (w : Window) :
    w.recover.next.remaining ≤ w.next.remaining := by
  unfold recover
  split
  · exact Nat.le_refl _
  · rw [remaining_next_log]
    exact w.remaining_next_sweep_le

end Window

end Monkey
