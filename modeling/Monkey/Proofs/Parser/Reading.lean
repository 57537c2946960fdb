import Monkey.Parser.Script
import Monkey.Proofs.Parser.Ahead

/-! # Reading from a list of tokens

The parser said over the list of tokens that are ahead, with no window and no lexer. A
reader stands for a rule; from a reader the statements and the mismatches of a whole
program are computed by recursion on the tokens. -/

namespace Monkey

/-! ## Readers -/

/-- How a value is read: the outcome, the mismatches found, and what is left. -/
structure Reading where
  outcome : Outcome
  mismatches : List Diagnostic
  left : List Token

/-- A way to read a value from the tokens ahead and the last token behind them. -/
structure Reader where
  read : List Token → Token → Reading
  left_suffix : ∀ tokens last, (read tokens last).left <:+ tokens

/-! ## Findings -/

/-- A parser finds statements and mismatches in turn. -/
inductive Finding where
  | statement (statement : Statement)
  | mismatch (mismatch : Diagnostic)

namespace Finding

def statement? : Finding → Option Statement
  | .statement s => some s
  | .mismatch _ => none

def mismatch? : Finding → Option Diagnostic
  | .statement _ => none
  | .mismatch d => some d

end Finding

/-! ## One turn of the loop -/

/-- What one turn gives: a statement or none, mismatches, and the tokens for the next. -/
structure Turn where
  statement : Option Statement
  mismatches : List Diagnostic
  left : List Token

def Turn.findings (turn : Turn) : List Finding :=
  turn.statement.toList.map .statement ++ turn.mismatches.map .mismatch

namespace Reader

/-- Reads a value and, if that succeeds, drops what stands before a semicolon behind it. -/
def value (reader : Reader) (tokens : List Token) (last : Token) : Reading :=
  let reading := reader.read tokens last
  match reading.outcome with
  | .abandoned => reading
  | .value _ =>
    if (reading.left.tail.headD last).kind = .semicolon then
      { reading with left := reading.left.tail }
    else reading

/-- Reads the value of a statement and leaves the statement. -/
def complete (reader : Reader) (recovery : Recovery) (build : Option Expression → Statement)
    (tokens : List Token) (last : Token) : Turn :=
  let reading := reader.value tokens last
  match reading.outcome with
  | .abandoned => ⟨none, reading.mismatches, (recovery.leave reading.left).tail⟩
  | .value value => ⟨some (build value), reading.mismatches, reading.left.tail⟩

/-- Reads what the first token opens. -/
def turn (reader : Reader) (recovery : Recovery) (last t : Token) (rest : List Token) : Turn :=
  match t.kind with
  | .letWord =>
    let name := rest.headD last
    let sign := rest.tail.headD last
    if name.kind = .ident then
      if sign.kind = .assign then
        reader.complete recovery (.letBinding t (.ofToken name)) rest.tail.tail last
      else ⟨none, [.mismatch .assign name sign], (recovery.leave rest).tail⟩
    else ⟨none, [.mismatch .ident t name], (recovery.leave (t :: rest)).tail⟩
  | .returnWord => reader.complete recovery (.returning t) rest last
  | _ => ⟨none, [], rest⟩

/-- A statement whose value is read ends behind the value, or behind the semicolon there. -/
theorem complete_of_value (reader : Reader) (recovery : Recovery) {tokens : List Token}
    {last : Token} {value : Option Expression}
    (h : (reader.read tokens last).outcome = .value value)
    (build : Option Expression → Statement) :
    reader.complete recovery build tokens last =
      ⟨some (build value), (reader.read tokens last).mismatches,
        let behind := (reader.read tokens last).left.tail
        if (behind.headD last).kind = .semicolon then behind.tail else behind⟩ := by
  by_cases again : ((reader.read tokens last).left.tail.headD last).kind = .semicolon
  · simp only [complete, Reader.value, h, again, if_true]
  · simp only [complete, Reader.value, h, again, if_false]

/-! The five ways in which a turn can go. -/

section

variable (reader : Reader) (recovery : Recovery) {last t : Token} {rest : List Token}

theorem turn_of_plain (noLet : t.kind ≠ .letWord) (noReturn : t.kind ≠ .returnWord) :
    reader.turn recovery last t rest = ⟨none, [], rest⟩ := by
  unfold turn
  split
  · exact absurd ‹_› noLet
  · exact absurd ‹_› noReturn
  · rfl

theorem turn_of_return (word : t.kind = .returnWord) :
    reader.turn recovery last t rest = reader.complete recovery (.returning t) rest last := by
  simp [turn, word]

theorem turn_of_binding (word : t.kind = .letWord) (named : (rest.headD last).kind = .ident)
    (bound : (rest.tail.headD last).kind = .assign) :
    reader.turn recovery last t rest =
      reader.complete recovery (.letBinding t (.ofToken (rest.headD last))) rest.tail.tail last := by
  simp only [turn, word, named, bound, if_true]

theorem turn_of_missing_sign (word : t.kind = .letWord) (named : (rest.headD last).kind = .ident)
    (unbound : (rest.tail.headD last).kind ≠ .assign) :
    reader.turn recovery last t rest =
      ⟨none, [.mismatch .assign (rest.headD last) (rest.tail.headD last)],
        (recovery.leave rest).tail⟩ := by
  simp only [turn, word, named, unbound, if_true, if_false]

theorem turn_of_missing_name (word : t.kind = .letWord)
    (unnamed : (rest.headD last).kind ≠ .ident) :
    reader.turn recovery last t rest =
      ⟨none, [.mismatch .ident t (rest.headD last)], (recovery.leave (t :: rest)).tail⟩ := by
  simp only [turn, word, unnamed, if_false]

end

end Reader

theorem Recovery.leave_suffix (recovery : Recovery) (tokens : List Token) :
    recovery.leave tokens <:+ tokens := by
  cases recovery with
  | skipToken => exact List.suffix_rfl
  | synchronize => exact List.dropWhile_suffix _

/-- The step behind a failed statement takes at least one token. -/
theorem Recovery.tail_leave_suffix (recovery : Recovery) (t : Token) (rest : List Token) :
    (recovery.leave (t :: rest)).tail <:+ rest := by
  rcases List.suffix_cons_iff.mp (recovery.leave_suffix (t :: rest)) with same | suffix
  · simp [same]
  · exact (List.tail_suffix _).trans suffix

namespace Reader

variable (reader : Reader) (recovery : Recovery)

theorem left_value_suffix (tokens : List Token) (last : Token) :
    (reader.value tokens last).left <:+ tokens := by
  have suffix := reader.left_suffix tokens last
  unfold value
  dsimp only
  split
  · exact suffix
  · split
    · exact (List.tail_suffix _).trans suffix
    · exact suffix

theorem left_complete_suffix (build : Option Expression → Statement) (tokens : List Token)
    (last : Token) : (reader.complete recovery build tokens last).left <:+ tokens := by
  have suffix := reader.left_value_suffix tokens last
  unfold complete
  dsimp only
  split
  · exact (List.tail_suffix _).trans ((recovery.leave_suffix _).trans suffix)
  · exact (List.tail_suffix _).trans suffix

/-- Each turn takes at least one token. -/
theorem left_turn_suffix (last t : Token) (rest : List Token) :
    (reader.turn recovery last t rest).left <:+ rest := by
  by_cases isReturn : t.kind = .returnWord
  · rw [reader.turn_of_return recovery isReturn]
    exact reader.left_complete_suffix recovery _ rest last
  by_cases isLet : t.kind = .letWord
  · by_cases named : (rest.headD last).kind = .ident
    · by_cases bound : (rest.tail.headD last).kind = .assign
      · rw [reader.turn_of_binding recovery isLet named bound]
        refine (reader.left_complete_suffix recovery _ _ last).trans ?_
        exact (List.tail_suffix _).trans (List.tail_suffix _)
      · rw [reader.turn_of_missing_sign recovery isLet named bound]
        exact (List.tail_suffix _).trans (recovery.leave_suffix rest)
    · rw [reader.turn_of_missing_name recovery isLet named]
      exact recovery.tail_leave_suffix t rest
  · simp [reader.turn_of_plain recovery isLet isReturn]

/-- A first token of another kind than the last one stands in front of it. -/
theorem exists_cons_of_headD {tokens : List Token} {last : Token} {kind : Kind}
    (h : (tokens.headD last).kind = kind) (other : last.kind ≠ kind) :
    ∃ t rest, tokens = t :: rest ∧ t.kind = kind := by
  cases tokens with
  | nil => exact absurd h other
  | cons t rest => exact ⟨t, rest, rfl, h⟩

/-! ## Whole programs -/

/-- The statements and the mismatches of a list of tokens. -/
def program (last : Token) : List Token → List Statement × List Diagnostic
  | [] => ([], [])
  | t :: rest =>
    let turn := reader.turn recovery last t rest
    let more := program last turn.left
    (turn.statement.toList ++ more.1, turn.mismatches ++ more.2)
termination_by tokens => tokens.length
decreasing_by exact Nat.lt_succ_of_le (reader.left_turn_suffix recovery last t rest).length_le

/-- Reading turn by turn, as an induction on the tokens that are left. -/
theorem turn_induction (last : Token) {motive : List Token → Prop} (finish : motive [])
    (turn : ∀ t rest, motive (reader.turn recovery last t rest).left → motive (t :: rest))
    (tokens : List Token) : motive tokens :=
  program.induct reader recovery last motive finish turn tokens

/-- What a reader finds in a list of tokens, in the order in which it finds it. -/
def findings (last : Token) : List Token → List Finding
  | [] => []
  | t :: rest =>
    let turn := reader.turn recovery last t rest
    turn.findings ++ findings last turn.left
termination_by tokens => tokens.length
decreasing_by exact Nat.lt_succ_of_le (reader.left_turn_suffix recovery last t rest).length_le

/-- A program is what is found, the statements apart from the mismatches. -/
theorem program_eq_findings (last : Token) (tokens : List Token) :
    reader.program recovery last tokens =
      ((reader.findings recovery last tokens).filterMap Finding.statement?,
        (reader.findings recovery last tokens).filterMap Finding.mismatch?) := by
  have split : ∀ turn : Turn, turn.findings.filterMap Finding.statement? = turn.statement.toList ∧
      turn.findings.filterMap Finding.mismatch? = turn.mismatches := by
    intro turn
    cases statement : turn.statement <;>
      simp [Turn.findings, statement, List.filterMap_map, List.filterMap_cons, Function.comp_def,
        Finding.statement?, Finding.mismatch?]
  induction tokens using reader.turn_induction recovery last with
  | finish =>
    rw [program, findings]
    rfl
  | turn t rest ih =>
    rw [program, findings, List.filterMap_append, List.filterMap_append, (split _).1, (split _).2,
      ih]

section

variable {recovery : Recovery} {last t : Token} {rest : List Token}

theorem findings_cons_of_plain (noLet : t.kind ≠ .letWord) (noReturn : t.kind ≠ .returnWord) :
    reader.findings recovery last (t :: rest) = reader.findings recovery last rest := by
  rw [findings, reader.turn_of_plain recovery noLet noReturn]
  rfl

/-- Whether a semicolon in front is dropped makes no difference to what is found. -/
theorem findings_drop_semicolon (tokens : List Token) :
    reader.findings recovery last
      (if (tokens.headD last).kind = .semicolon then tokens.tail else tokens) =
      reader.findings recovery last tokens := by
  split
  · rename_i stop
    cases tokens with
    | nil => rfl
    | cons t rest =>
      have stops : t.kind = .semicolon := stop
      exact (reader.findings_cons_of_plain (by simp [stops]) (by simp [stops])).symm
  · rfl

theorem program_cons_of_plain (noLet : t.kind ≠ .letWord) (noReturn : t.kind ≠ .returnWord) :
    reader.program recovery last (t :: rest) = reader.program recovery last rest := by
  rw [program_eq_findings, findings_cons_of_plain reader noLet noReturn, ← program_eq_findings]

theorem program_drop_semicolon (tokens : List Token) :
    reader.program recovery last
      (if (tokens.headD last).kind = .semicolon then tokens.tail else tokens) =
      reader.program recovery last tokens := by
  rw [program_eq_findings, findings_drop_semicolon, ← program_eq_findings]

/-- A statement with its value, and the program behind it. -/
theorem program_of_complete {tokens : List Token} {build : Option Expression → Statement}
    {value : Option Expression}
    (turn : reader.turn recovery last t rest = reader.complete recovery build tokens last)
    (read : (reader.read tokens last).outcome = .value value) :
    reader.program recovery last (t :: rest) =
      (build value :: (reader.program recovery last (reader.read tokens last).left.tail).1,
        (reader.read tokens last).mismatches ++
          (reader.program recovery last (reader.read tokens last).left.tail).2) := by
  rw [program, turn, reader.complete_of_value recovery read build]
  dsimp only
  rw [program_drop_semicolon]
  rfl

end

end Reader

/-! ## Readers of the rules -/

namespace Reader

/-- Passes over the value up to the semicolon. -/
def skip : Reader where
  read tokens _ := ⟨.value none, [], tokens.dropWhile (·.kind != .semicolon)⟩
  left_suffix _ _ := List.dropWhile_suffix _

/-- Takes a name and stays on it; passes over any other value. -/
def name : Reader where
  read tokens last :=
    if (tokens.headD last).kind = .ident then
      ⟨.value (some (.identifier (.ofToken (tokens.headD last)))), [], tokens⟩
    else skip.read tokens last
  left_suffix tokens last := by
    split
    · exact List.suffix_rfl
    · exact skip.left_suffix tokens last

/-- Keeps nothing and stays. -/
def nothing : Reader where
  read tokens _ := ⟨.value none, [], tokens⟩
  left_suffix _ _ := List.suffix_rfl

/-- Takes any token for a name and stays on it. -/
def any : Reader where
  read tokens last := ⟨.value (some (.identifier (.ofToken (tokens.headD last)))), [], tokens⟩
  left_suffix _ _ := List.suffix_rfl

/-- Takes the last name before the semicolon. -/
def last : Reader where
  read tokens _ :=
    let names := (tokens.takeWhile (·.kind != .semicolon)).filter (·.kind == .ident)
    ⟨.value (names.getLast?.map (.identifier ∘ .ofToken)), [],
      tokens.dropWhile (·.kind != .semicolon)⟩
  left_suffix _ _ := List.dropWhile_suffix _

theorem read_name_of_eq {tokens : List Token} {last : Token}
    (h : (tokens.headD last).kind = .ident) :
    name.read tokens last =
      ⟨.value (some (.identifier (.ofToken (tokens.headD last)))), [], tokens⟩ := if_pos h

theorem read_name_of_ne {tokens : List Token} {last : Token}
    (h : (tokens.headD last).kind ≠ .ident) :
    name.read tokens last = skip.read tokens last := if_neg h

end Reader

end Monkey
