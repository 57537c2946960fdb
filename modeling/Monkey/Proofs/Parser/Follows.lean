import Monkey.Parser.Run
import Monkey.Proofs.Parser.Reading

/-! # Parsers follow readers

A rule follows a reader when, on any window, it comes to what the reader makes of the
tokens ahead. Main statement: a parser with such a rule gives the statements and the
mismatches that the reader computes from the tokens of the text. -/

namespace Monkey

/-- A run of moves from a window comes to a reading. -/
structure Window.Yields {bound : Nat} (w : Window) (run : Window.Within Outcome bound)
    (last : Token) (reading : Reading) : Prop where
  value_eq : run.value = reading.outcome
  reaches : w.Reaches run.window reading.left last reading.mismatches

/-- On any window, a rule comes to what the reader makes of the tokens ahead. -/
def Rule.Follows (rule : Rule) (reader : Reader) : Prop :=
  ∀ {bound : Nat} (inner : (w : Window) → w.remaining < bound → Window.Within Program bound)
    {w : Window} (h : w.remaining < bound) {tokens : List Token} {last : Token},
    w.Ahead tokens last → w.Yields ((rule w).run inner w h) last (reader.read tokens last)

/-! ## The loop of the parser -/

namespace Window

/-- The statement that an attempt gives, if any. -/
def Attempt.statement : Attempt → Option Statement
  | .parsed statement => some statement
  | .nothing => none
  | .failed => none

/-- The window for the turn after an attempt. -/
def Attempt.leave : Attempt → Window → Window
  | .parsed statement, w => (w.log (.statement statement)).next
  | .nothing, w => w.next
  | .failed, w => w.recover.next

theorem Attempt.remaining_leave_le (attempt : Attempt) (w : Window) :
    (attempt.leave w).remaining ≤ w.next.remaining := by
  cases attempt with
  | parsed => exact Nat.le_refl _
  | nothing => exact Nat.le_refl _
  | failed => exact w.remaining_next_recover_le

theorem parseFrom_of_eof (rule : Rule) {bound : Nat} (statements : Array Statement) {w : Window}
    (h : w.remaining < bound) (eof : w.current.kind = .eof) :
    parseFrom rule statements w h =
      ⟨⟨statements⟩, w.log (.program statements.size w.diagnostics.size), h⟩ := by
  rw [parseFrom, dif_pos eof]

/-- One turn of the loop: an attempt at a statement, and the loop again behind it. -/
theorem parseFrom_of_ne_eof (rule : Rule) {bound : Nat} (statements : Array Statement)
    {w : Window} (h : w.remaining < bound) (more : w.current.kind ≠ .eof) :
    let read := w.statement rule more fun q below => parseFrom rule #[] q.cleared below
    ∃ below : (read.value.leave read.window).remaining < bound,
      parseFrom rule statements w h =
        parseFrom rule (statements ++ read.value.statement.toList.toArray)
          (read.value.leave read.window) below := by
  intro read
  refine ⟨Nat.lt_of_le_of_lt (read.value.remaining_leave_le _)
    (Nat.lt_trans read.remaining_next_lt h), ?_⟩
  rw [parseFrom, dif_neg more]
  dsimp only
  split <;> rename_i same <;> change read.value = _ at same
  · simp [same, Attempt.statement, Attempt.leave, read]
  · simp [same, Attempt.statement, Attempt.leave, read]
  · simp [same, Attempt.statement, Attempt.leave, read]

/-- The loop of the parser, as an induction on the windows that it passes: what holds of the
programs in the middle of a value and of what the loop gives behind a turn holds before it. -/
theorem parseFrom_induction (rule : Rule)
    {motive : Array Statement → Window → Program → Window → Prop}
    (finish : ∀ (statements : Array Statement) (w : Window), w.current.kind = .eof →
      motive statements w ⟨statements⟩ (w.log (.program statements.size w.diagnostics.size)))
    (turn : ∀ (statements : Array Statement) (w : Window) (more : w.current.kind ≠ .eof)
      (program : Program) (w' : Window),
      let inner := fun (q : Window) (below : q.remaining < w.remaining) =>
        parseFrom rule #[] q.cleared below
      let read := w.statement rule more inner
      (∀ (q : Window) (below : q.remaining < w.remaining),
        motive #[] q.cleared (inner q below).value (inner q below).window) →
      motive (statements ++ read.value.statement.toList.toArray) (read.value.leave read.window)
        program w' →
      motive statements w program w')
    {bound : Nat} (statements : Array Statement) {w : Window} (h : w.remaining < bound) :
    motive statements w (parseFrom rule statements w h).value
      (parseFrom rule statements w h).window := by
  -- What remains to be read shrinks with each turn and in front of each inner program.
  induction left : w.remaining using Nat.strong_induction_on generalizing w bound statements with
  | _ n ih =>
    subst left
    by_cases eof : w.current.kind = .eof
    · rw [parseFrom_of_eof rule statements h eof]
      exact finish statements w eof
    · let read := w.statement rule eof fun q below => parseFrom rule #[] q.cleared below
      obtain ⟨below, same⟩ := parseFrom_of_ne_eof rule statements h eof
      have inner : ∀ (q : Window) (smaller : q.remaining < w.remaining),
          motive #[] q.cleared (parseFrom rule #[] q.cleared smaller).value
            (parseFrom rule #[] q.cleared smaller).window := by
        intro q smaller
        have fits : q.cleared.remaining < w.remaining := smaller
        exact ih q.remaining smaller #[] fits rfl
      have shrinks : (read.value.leave read.window).remaining < w.remaining :=
        Nat.lt_of_le_of_lt (Attempt.remaining_leave_le _ _) read.remaining_next_lt
      rw [same]
      exact turn statements w eof _ _ inner (ih _ shrinks _ below rfl)

/-- An attempt comes to a turn. -/
structure Takes {bound : Nat} (w : Window) (attempt : Poised Attempt bound) (last : Token)
    (turn : Turn) : Prop where
  statement_eq : attempt.value.statement = turn.statement
  reaches : w.Reaches (attempt.value.leave attempt.window) turn.left last turn.mismatches

section

variable {rule : Rule} {reader : Reader} (follows : rule.Follows reader) {bound : Nat}
  (inner : (w : Window) → w.remaining < bound → Within Program bound) {w : Window}
  (h : w.remaining < bound) {tokens : List Token} {last : Token} (ahead : w.Ahead tokens last)

include follows ahead

theorem expression_yields :
    w.Yields (expression rule inner w h) last (reader.value tokens last) := by
  obtain ⟨value, reaches⟩ := follows inner h ahead
  unfold expression Reader.value
  cases outcome : (reader.read tokens last).outcome with
  | abandoned =>
    simp only [value, outcome]
    exact ⟨by rw [value], reaches⟩
  | value expression =>
    simp only [value, outcome, reaches.ahead.peek_eq]
    split
    · exact ⟨rfl, reaches.next⟩
    · exact ⟨by rw [value], reaches⟩

theorem complete_takes (build : Option Expression → Statement) :
    w.Takes (complete rule inner w h build) last
      (reader.complete w.recovery build tokens last) := by
  obtain ⟨value, reaches⟩ := expression_yields follows inner h ahead
  unfold complete Reader.complete
  cases outcome : (reader.value tokens last).outcome with
  | abandoned =>
    simp only [value, outcome]
    exact ⟨rfl, reaches.recover.next⟩
  | value expression =>
    simp only [value, outcome]
    exact ⟨rfl, (reaches.log _).next⟩

end

theorem Takes.behind {bound : Nat} {w w' : Window} {attempt : Poised Attempt bound}
    {tokens : List Token} {last : Token} {turn : Turn} (h : w'.Takes attempt last turn)
    (reaches : w.Reaches w' tokens last []) : w.Takes attempt last turn :=
  ⟨h.statement_eq, reaches.trans h.reaches⟩

variable {rule : Rule} {reader : Reader} (follows : rule.Follows reader)

include follows

theorem letBinding_takes {w : Window} (more : w.current.kind ≠ .eof)
    (inner : (q : Window) → q.remaining < w.remaining → Within Program w.remaining)
    {t : Token} {rest : List Token} {last : Token} (ahead : w.Ahead (t :: rest) last)
    (word : t.kind = .letWord) :
    w.Takes (w.letBinding rule more inner) last (reader.turn w.recovery last t rest) := by
  have current : w.current = t := ahead.current_eq
  have name : w.peek = rest.headD last := ahead.peek_eq
  have sign : w.next.peek = rest.tail.headD last := ahead.next.ahead.peek_eq
  unfold letBinding
  by_cases named : (rest.headD last).kind = .ident
  · rw [dif_pos (by rw [name, named])]
    by_cases bound : (rest.tail.headD last).kind = .assign
    · rw [dif_pos (by rw [sign, bound]), reader.turn_of_binding _ word named bound, current, name]
      have behind := ahead.next.next.next
      exact (complete_takes follows inner _ behind.ahead _).behind behind
    · rw [dif_neg (by rw [sign]; exact bound), reader.turn_of_missing_sign _ word named bound]
      have missed := (ahead.next.ahead.expect_missed bound).2
      exact ⟨rfl, (ahead.next.trans missed).recover.next⟩
  · rw [dif_neg (by rw [name]; exact named), reader.turn_of_missing_name _ word named]
    exact ⟨rfl, (ahead.expect_missed named).2.recover.next⟩

theorem statement_takes {w : Window} (more : w.current.kind ≠ .eof)
    (inner : (q : Window) → q.remaining < w.remaining → Within Program w.remaining)
    {t : Token} {rest : List Token} {last : Token} (ahead : w.Ahead (t :: rest) last) :
    w.Takes (w.statement rule more inner) last (reader.turn w.recovery last t rest) := by
  have current : w.current = t := ahead.current_eq
  unfold statement
  split
  · rename_i word
    exact letBinding_takes follows more inner ahead (by rw [← current, word])
  · rename_i word
    rw [reader.turn_of_return _ (by rw [← current, word]), ← current]
    exact (complete_takes follows inner _ ahead.next.ahead _).behind ahead.next
  · rename_i noLet noReturn
    rw [current] at noLet noReturn
    rw [reader.turn_of_plain _ noLet noReturn]
    exact ⟨rfl, ahead.next⟩

/-- A parser whose rule follows a reader gives what the reader computes from the tokens,
and comes to the last of them. -/
theorem parseFrom_follows {w : Window} {bound : Nat} (statements : Array Statement)
    (h : w.remaining < bound) {tokens : List Token} {last : Token} (ahead : w.Ahead tokens last) :
    (parseFrom rule statements w h).value.statements.toList =
        statements.toList ++ (reader.program w.recovery last tokens).1 ∧
      w.Reaches (parseFrom rule statements w h).window [] last
        (reader.program w.recovery last tokens).2 := by
  generalize mode : w.recovery = recovery
  -- The tokens ahead shrink with each turn, as the recursion of the reader says.
  induction tokens using reader.turn_induction recovery last
    generalizing w bound statements with
  | finish =>
    rw [parseFrom_of_eof rule statements h (ahead.current_kind_eq_eof_iff.mpr rfl),
      Reader.program]
    exact ⟨(List.append_nil _).symm, ahead.refl.log _⟩
  | turn t rest ih =>
    have more : w.current.kind ≠ .eof := by
      rw [ne_eq, ahead.current_kind_eq_eof_iff]
      simp
    obtain ⟨below, same⟩ := parseFrom_of_ne_eof rule statements h more
    have takes := statement_takes follows more
      (fun q below => parseFrom rule #[] q.cleared below) ahead
    rw [mode] at takes
    obtain ⟨statement, reaches⟩ := takes
    obtain ⟨more, finish⟩ := ih _ below reaches.ahead (reaches.recovery_eq.trans mode)
    rw [same, Reader.program]
    refine ⟨?_, reaches.trans finish⟩
    rw [more, statement]
    simp

/-- Reading a whole program from a new window over a lexer. -/
theorem parseProgram_follows {lexer : Lexer} {tokens : List Token} {last : Token}
    (stream : lexer.stream = tokens ++ [last]) (recovery : Recovery) :
    let read := (ofLexer recovery lexer).parseProgram rule
    read.1.statements.toList = (reader.program recovery last tokens).1 ∧
      read.2.diagnostics.toList = (reader.program recovery last tokens).2 ∧
      read.2.lexer.diagnostics.toList = lexer.reports := by
  have start : (ofLexer recovery lexer).cleared.Ahead tokens last := ahead_ofLexer stream recovery
  obtain ⟨statements, reaches⟩ := parseFrom_follows follows #[]
    (Nat.lt_succ_self (ofLexer recovery lexer).cleared.remaining) start
  refine ⟨statements, reaches.diagnostics_eq, ?_⟩
  rw [← reports_ofLexer recovery lexer]
  exact reaches.ahead.diagnostics_lexer.trans reaches.reports_eq

end Window

/-! ## Whole texts -/

/-- A text read to its end with a rule for its values. -/
def readWith (rule : Rule) (source : String) (file : FileId) (recovery : Recovery) :
    Program × Window :=
  (Window.ofLexer recovery (.ofText source file)).parseProgram rule

/-- What a reader makes of the tokens of a text. -/
structure Reader.ReadsText (reader : Reader) (source : String) (file : FileId)
    (recovery : Recovery) (read : Program × Window) (tokens : List Token) (last : Token) : Prop where
  tokens_eq : (tokenize source file).1.toList = tokens ++ [last]
  last_kind : last.kind = .eof
  statements_eq : read.1.statements.toList = (reader.program recovery last tokens).1
  diagnostics_eq : read.2.diagnostics.toList = (reader.program recovery last tokens).2
  lexer_diagnostics_eq : read.2.lexer.diagnostics = (tokenize source file).2

theorem readWith_follows {rule : Rule} {reader : Reader} (follows : rule.Follows reader)
    (source : String) (file : FileId) (recovery : Recovery) :
    ∃ tokens last,
      reader.ReadsText source file recovery (readWith rule source file recovery) tokens last := by
  obtain ⟨tokens, last, stream, _, eof⟩ := (Lexer.ofText source file).exists_stream_eq
  obtain ⟨statements, mismatches, illegal⟩ := Window.parseProgram_follows follows stream recovery
  refine ⟨tokens, last, stream, eof, statements, mismatches, Array.toList_inj.mp ?_⟩
  exact illegal.trans (Lexer.diagnostics_tokenize _).symm

/-! ## The rules and their readers -/

namespace Rule

theorem skip_follows : Rule.skip.Follows .skip := by
  intro bound inner w h tokens last ahead
  exact ⟨rfl, ahead.sweep⟩

theorem name_follows : Rule.name.Follows .name := by
  intro bound inner w h tokens last ahead
  unfold Rule.name currentName?
  rw [ahead.current_eq]
  by_cases named : (tokens.headD last).kind = .ident
  · rw [if_pos named, Reader.read_name_of_eq named]
    exact ⟨rfl, ahead.refl⟩
  · rw [if_neg named, Reader.read_name_of_ne named]
    exact skip_follows inner h ahead

theorem nothing_follows : Rule.nothing.Follows .nothing := by
  intro bound inner w h tokens last ahead
  exact ⟨rfl, ahead.refl⟩

theorem any_follows : Rule.any.Follows .any := by
  intro bound inner w h tokens last ahead
  refine ⟨?_, ahead.refl⟩
  show Outcome.value (some (.identifier (.ofToken w.current))) = _
  rw [ahead.current_eq]
  rfl

theorem last_follows : Rule.last.Follows .last := by
  intro bound inner w h tokens last ahead
  refine ⟨?_, ahead.sweep⟩
  show Outcome.value ((w.sweep.1.toList.filter (·.kind == .ident)).getLast?.map
    (.identifier ∘ .ofToken)) = _
  rw [ahead.passed_sweep]
  rfl

end Rule

end Monkey
