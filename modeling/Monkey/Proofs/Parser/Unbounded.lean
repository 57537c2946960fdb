import Monkey.Proofs.Parser.Follows

/-! # The parser without bounds

The loops of the parser as they stand, with nothing in them that makes them end: a sweep, the
turns of a program, and the programs that a rule reads in the middle of a value. Each is the
least function with its equation, so it has a value just where the recursion ends. Main
statement: it ends on every window and with every rule, and the value is what the parser gives. -/

namespace Monkey

namespace Window

/-! ## Sweeps -/

def sweepUnbounded (passed : Array Token) (w : Window) : Option (Array Token × Window) :=
  if w.current.kind = .semicolon ∨ w.current.kind = .eof then some (passed, w)
  else w.next |>.sweepUnbounded (passed.push w.current)
partial_fixpoint

theorem sweepUnbounded_eq (passed : Array Token) (w : Window) :
    w.sweepUnbounded passed = some (w.sweepFrom passed) := by
  fun_induction sweepFrom passed w with
  | case1 passed w stop => rw [sweepUnbounded, if_pos stop]
  | case2 passed w more ih => rw [sweepUnbounded, if_neg more, ih]

def recoverUnbounded (w : Window) : Option Window :=
  match w.recovery with
  | .skipToken => some w
  | .synchronize => do
    let swept ← w.sweepUnbounded #[]
    some (swept.2.log (.resynchronized swept.1.size))

theorem recoverUnbounded_eq (w : Window) : w.recoverUnbounded = some w.recover := by
  cases mode : w.recovery with
  | skipToken => simp only [recoverUnbounded, recover, mode]
  | synchronize =>
    simp only [recoverUnbounded, recover, mode, sweepUnbounded_eq]
    rfl

/-- The window for the turn after an attempt. -/
def Attempt.leaveUnbounded : Attempt → Window → Option Window
  | .parsed statement, w => some (w.log (.statement statement)).next
  | .nothing, w => some w.next
  | .failed, w => w.recoverUnbounded.map next

theorem Attempt.leaveUnbounded_eq (attempt : Attempt) (w : Window) :
    attempt.leaveUnbounded w = some (attempt.leave w) := by
  cases attempt with
  | parsed | nothing => rfl
  | failed =>
    rw [leaveUnbounded, recoverUnbounded_eq]
    rfl

end Window

open Window

/-! ## Programs -/

mutual

/-- Carries out a script, whose programs may go on for ever. -/
def Script.runUnbounded (rule : Rule) (script : Script) (w : Window) : Option (Outcome × Window) :=
  match script with
  | .done outcome => some (outcome, w)
  | .next rest => rest w.next |>.runUnbounded rule w.next
  | .expect kind rest =>
    let met := w.expect kind
    rest met.1 met.2 |>.runUnbounded rule met.2
  | .sweep rest => do
    let swept ← w.sweepUnbounded #[]
    rest swept.1 swept.2 |>.runUnbounded rule swept.2
  | .takeDiagnostics rest =>
    let taken := w.takeDiagnostics
    rest taken.1 taken.2 |>.runUnbounded rule taken.2
  | .takeLexerDiagnostics rest =>
    let taken := w.takeLexerDiagnostics
    rest taken.1 taken.2 |>.runUnbounded rule taken.2
  | .parseProgram rest => do
    let parsed ← w.cleared |>.parseUnbounded rule #[]
    rest parsed.1 parsed.2 |>.runUnbounded rule parsed.2
partial_fixpoint

/-- Reads the value of a statement, steps onto the semicolon behind it and completes the
statement. -/
def Window.completeUnbounded (rule : Rule) (w : Window)
    (build : Option Expression → Statement) : Option (Attempt × Window) := do
  let read ← rule w |>.runUnbounded rule w
  match read.1 with
  | .abandoned => some (.failed, read.2)
  | .value value =>
    some (.parsed (build value),
      if read.2.peek.kind = .semicolon then read.2.next else read.2)
partial_fixpoint

/-- Reads the statement that the current token opens. -/
def Window.statementUnbounded (rule : Rule) (w : Window) : Option (Attempt × Window) :=
  match w.current.kind with
  | .letWord =>
    if w.peek.kind = .ident then
      if w.next.peek.kind = .assign then
        w.next.next.next |>.completeUnbounded rule (.letBinding w.current (.ofToken w.peek))
      else some (.failed, (w.next.expect .assign).2)
    else some (.failed, (w.expect .ident).2)
  | .returnWord => w.next |>.completeUnbounded rule (.returning w.current)
  | _ => some (.nothing, w)
partial_fixpoint

/-- Reads statements as long as the current token is not the end of the text. -/
def Window.parseUnbounded (rule : Rule) (statements : Array Statement) (w : Window) :
    Option (Program × Window) :=
  if w.current.kind = .eof then
    some (⟨statements⟩, w.log (.program statements.size w.diagnostics.size))
  else do
    let read ← w |>.statementUnbounded rule
    let left ← read.1.leaveUnbounded read.2
    left |>.parseUnbounded rule (statements ++ read.1.statement.toList.toArray)
partial_fixpoint

end

section

variable {rule : Rule} {bound : Nat}
  {inner : (w : Window) → w.remaining < bound → Within Program bound}
  (ends : ∀ w h, w.cleared.parseUnbounded rule #[] = some ((inner w h).value, (inner w h).window))

include ends

theorem Script.runUnbounded_eq (script : Script) (w : Window) (h : w.remaining < bound) :
    script.runUnbounded rule w =
      some ((script.run inner w h).value, (script.run inner w h).window) := by
  induction script generalizing w with
  | done outcome => rw [runUnbounded, run]
  | next rest ih =>
    rw [runUnbounded]
    exact ih _ w.next _
  | expect kind rest ih =>
    rw [runUnbounded]
    exact ih _ _ _ _
  | sweep rest ih =>
    rw [runUnbounded, sweepUnbounded_eq]
    exact ih _ _ _ _
  | takeDiagnostics rest ih =>
    rw [runUnbounded]
    exact ih _ _ _ _
  | takeLexerDiagnostics rest ih =>
    rw [runUnbounded]
    exact ih _ _ _ _
  | parseProgram rest ih =>
    rw [runUnbounded, ends w h]
    exact ih _ _ _ _

theorem Window.completeUnbounded_eq (w : Window) (h : w.remaining < bound)
    (build : Option Expression → Statement) :
    w.completeUnbounded rule build = some ((complete rule inner w h build).value,
      (complete rule inner w h build).window) := by
  rw [completeUnbounded, (rule w).runUnbounded_eq ends w h]
  unfold complete expression
  cases outcome : ((rule w).run inner w h).value with
  | abandoned => simp [outcome]
  | value value =>
    by_cases stop : ((rule w).run inner w h).window.peek.kind = .semicolon <;>
      simp [outcome, stop]

end

namespace Window

theorem statementUnbounded_eq {rule : Rule} (w : Window) (more : w.current.kind ≠ .eof)
    {inner : (q : Window) → q.remaining < w.remaining → Within Program w.remaining}
    (ends : ∀ q below, q.cleared.parseUnbounded rule #[] =
      some ((inner q below).value, (inner q below).window)) :
    w.statementUnbounded rule = some ((w.statement rule more inner).value,
      (w.statement rule more inner).window) := by
  rw [statementUnbounded]
  cases word : w.current.kind with
  | letWord =>
    simp only [statement, word, letBinding]
    by_cases named : w.peek.kind = .ident
    · rw [if_pos named, dif_pos named]
      by_cases bound : w.next.peek.kind = .assign
      · rw [if_pos bound, dif_pos bound]
        exact completeUnbounded_eq ends _ _ _
      · rw [if_neg bound, dif_neg bound]
    · rw [if_neg named, dif_neg named]
  | returnWord =>
    simp only [statement, word]
    exact completeUnbounded_eq ends _ _ _
  | _ => simp only [statement, word]

/-- The loop of the parser ends, on every window and with every rule. -/
theorem parseUnbounded_eq (rule : Rule) {bound : Nat} (statements : Array Statement) (w : Window)
    (h : w.remaining < bound) :
    w.parseUnbounded rule statements =
      some ((parseFrom rule statements w h).value, (parseFrom rule statements w h).window) := by
  refine parseFrom_induction rule (motive := fun statements w program left =>
    w.parseUnbounded rule statements = some (program, left)) ?_ ?_ statements h
  · intro statements w eof
    rw [parseUnbounded, if_pos eof]
  · intro statements w more program left inner read programs rest
    rw [parseUnbounded, if_neg more, w.statementUnbounded_eq more programs]
    show (do
      let left ← read.value.leaveUnbounded read.window
      left.parseUnbounded rule _) = _
    rw [Attempt.leaveUnbounded_eq]
    exact rest

/-- A whole program, read by the loop without bounds. -/
def parseProgramUnbounded (rule : Rule) (w : Window) : Option (Program × Window) :=
  w.cleared.parseUnbounded rule #[]

theorem parseProgramUnbounded_eq (rule : Rule) (w : Window) :
    w.parseProgramUnbounded rule = some (w.parseProgram rule) :=
  parseUnbounded_eq rule #[] w.cleared (Nat.lt_succ_self _)

end Window

end Monkey
