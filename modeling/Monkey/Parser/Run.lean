import Monkey.Parser.Script

/-! # Running the parser

Statements are read until the end of the text. A script may read a program in the
middle of a statement, so each run carries the bound under which it leaves what
remains to be read; every turn of the loop and every inner program works under a
smaller one. -/

namespace Monkey

namespace Window

/-- A result and a window with less left than the bound. -/
structure Within (α : Type) (bound : Nat) where
  value : α
  window : Window
  remaining_lt : window.remaining < bound

/-- A result and a window that has less left than the bound after one more step. -/
structure Poised (α : Type) (bound : Nat) where
  value : α
  window : Window
  remaining_next_lt : window.next.remaining < bound

/-- A window is ready for a program when the mismatches of the last one are gone. -/
def cleared (w : Window) : Window := { w with diagnostics := #[] }

@[simp] theorem remaining_cleared (w : Window) : w.cleared.remaining = w.remaining := rfl

/-- How reading a statement ended. Tokens that open no statement give nothing. -/
inductive Attempt where
  | parsed (statement : Statement)
  | nothing
  | failed

end Window

open Window

/-- Carries out a script. `inner` reads a program from a window with less left than
the bound. -/
def Script.run {bound : Nat}
    (inner : (w : Window) → w.remaining < bound → Within Program bound) :
    Script → (w : Window) → w.remaining < bound → Within Outcome bound
  | .done outcome, w, h => ⟨outcome, w, h⟩
  | .next rest, w, h =>
    (rest w.next).run inner w.next (Nat.lt_of_le_of_lt w.remaining_next_le h)
  | .expect kind rest, w, h =>
    let met := w.expect kind
    (rest met.1 met.2).run inner met.2 (Nat.lt_of_le_of_lt (w.remaining_expect_le kind) h)
  | .sweep rest, w, h =>
    let swept := w.sweep
    (rest swept.1 swept.2).run inner swept.2 (Nat.lt_of_le_of_lt w.remaining_sweep_le h)
  | .takeDiagnostics rest, w, h =>
    let taken := w.takeDiagnostics
    (rest taken.1 taken.2).run inner taken.2 h
  | .takeLexerDiagnostics rest, w, h =>
    let taken := w.takeLexerDiagnostics
    (rest taken.1 taken.2).run inner taken.2 h
  | .parseProgram rest, w, h =>
    let parsed := inner w h
    (rest parsed.value parsed.window).run inner parsed.window parsed.remaining_lt

namespace Window

/-- Reads a value and steps onto the semicolon behind it. -/
def expression {bound : Nat} (rule : Rule)
    (inner : (w : Window) → w.remaining < bound → Within Program bound)
    (w : Window) (h : w.remaining < bound) : Within Outcome bound :=
  let read := (rule w).run inner w h
  match read.value with
  | .abandoned => read
  | .value _ =>
    if read.window.peek.kind = .semicolon then
      ⟨read.value, read.window.next,
        Nat.lt_of_le_of_lt read.window.remaining_next_le read.remaining_lt⟩
    else read

/-- Reads the value of a statement and completes the statement with it. -/
def complete {bound : Nat} (rule : Rule)
    (inner : (w : Window) → w.remaining < bound → Within Program bound)
    (w : Window) (h : w.remaining < bound) (build : Option Expression → Statement) :
    Poised Attempt bound :=
  let read := expression rule inner w h
  let attempt := match read.value with
    | .abandoned => .failed
    | .value value => .parsed (build value)
  ⟨attempt, read.window,
    Nat.lt_of_le_of_lt read.window.remaining_next_le read.remaining_lt⟩

theorem remaining_next_expect_of_ne {w : Window} {kind : Kind} (h : w.peek.kind ≠ kind) :
    (w.expect kind).2.next.remaining = w.next.remaining := by
  rw [expect_of_ne h]
  rfl

/-- Reads a name, an equals sign and a value behind the current keyword. -/
def letBinding (rule : Rule) (w : Window) (h : w.current.kind ≠ .eof)
    (inner : (q : Window) → q.remaining < w.remaining → Within Program w.remaining) :
    Poised Attempt w.remaining :=
  if named : w.peek.kind = .ident then
    if bound : w.next.peek.kind = .assign then
      complete rule inner w.next.next.next
        (Nat.lt_of_le_of_lt (Nat.le_trans (remaining_next_le _) (remaining_next_le _))
          (remaining_next_lt h))
        (.letBinding w.current (.ofToken w.peek))
    else
      ⟨.failed, (w.next.expect .assign).2, by
        rw [remaining_next_expect_of_ne bound]
        exact Nat.lt_of_le_of_lt (remaining_next_le _) (remaining_next_lt h)⟩
  else
    ⟨.failed, (w.expect .ident).2, by
      rw [remaining_next_expect_of_ne named]
      exact remaining_next_lt h⟩

/-- Reads the statement that the current token opens. -/
def statement (rule : Rule) (w : Window) (h : w.current.kind ≠ .eof)
    (inner : (q : Window) → q.remaining < w.remaining → Within Program w.remaining) :
    Poised Attempt w.remaining :=
  match w.current.kind with
  | .letWord => w.letBinding rule h inner
  | .returnWord => complete rule inner w.next (remaining_next_lt h) (.returning w.current)
  | _ => ⟨.nothing, w, remaining_next_lt h⟩

/-- Reads statements up to the end of the text. -/
def parseFrom (rule : Rule) {bound : Nat} (statements : Array Statement)
    (w : Window) (h : w.remaining < bound) : Within Program bound :=
  if more : w.current.kind = .eof then
    ⟨⟨statements⟩, w.log (.program statements.size w.diagnostics.size), h⟩
  else
    let read := w.statement rule more fun q below => parseFrom rule #[] q.cleared below
    have shrinks : read.window.next.remaining < w.remaining := read.remaining_next_lt
    match read.value with
    | .parsed statement =>
      parseFrom rule (statements.push statement) (read.window.log (.statement statement)).next
        (Nat.lt_trans shrinks h)
    | .nothing => parseFrom rule statements read.window.next (Nat.lt_trans shrinks h)
    | .failed =>
      parseFrom rule statements read.window.recover.next
        (Nat.lt_trans (Nat.lt_of_le_of_lt (remaining_next_recover_le _) shrinks) h)
termination_by w.remaining
decreasing_by
  · exact below
  · exact shrinks
  · exact shrinks
  · exact Nat.lt_of_le_of_lt (remaining_next_recover_le _) shrinks

/-- Reads a whole program with a rule for its values. -/
def parseProgram (rule : Rule) (w : Window) : Program × Window :=
  let read := parseFrom rule #[] w.cleared (Nat.lt_succ_self _)
  (read.value, read.window)

end Window

end Monkey
