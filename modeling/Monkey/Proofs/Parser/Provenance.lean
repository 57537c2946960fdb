import Monkey.Proofs.Parser.Moves

/-! # Where the tokens of a program come from

A window hands on the tokens that its lexer gives. A script draws from them when its value is
made of tokens that it has seen in the window, in a sweep or in a program that it has read.
Main statement: with such scripts, whatever holds of each token of the text holds of each
token of the program. -/

namespace Monkey

/-! ## The tokens of a program -/

def Expression.tokens : Expression → List Token
  | identifier name => [name.token]

namespace Statement

def tokens : Statement → List Token
  | letBinding keyword name value =>
    keyword :: name.token :: value.toList.flatMap Expression.tokens
  | returning keyword value => keyword :: value.toList.flatMap Expression.tokens

end Statement

def Program.tokens (p : Program) : List Token := p.statements.toList.flatMap Statement.tokens

def Outcome.tokens : Outcome → List Token
  | value expression => expression.toList.flatMap Expression.tokens
  | abandoned => []

def Window.Attempt.tokens (attempt : Attempt) : List Token :=
  attempt.statement.toList.flatMap Statement.tokens

namespace Lexer

theorem next_mem_stream (lexer : Lexer) : lexer.next.1 ∈ lexer.stream := by
  by_cases eof : lexer.next.1.kind = .eof
  · simp [stream_of_eof eof]
  · simp [stream_of_ne_eof eof]

theorem stream_next_subset (lexer : Lexer) : lexer.next.2.stream ⊆ lexer.stream := by
  by_cases eof : lexer.next.1.kind = .eof
  · have again : lexer.next.2.next.1.kind = .eof := by rw [next_next_of_eof eof, eof]
    rw [stream_of_eof again, next_next_of_eof eof, stream_of_eof eof]
    exact List.Subset.refl _
  · rw [stream_of_ne_eof eof]
    exact List.subset_cons_self _ _

end Lexer

/-! ## Windows -/

/-- The tokens that the window shows, and those that its lexer holds, are all of one sort. -/
structure Window.DrawsFrom (w : Window) (P : Token → Prop) : Prop where
  current : P w.current
  peek : P w.peek
  stream : ∀ t ∈ w.lexer.stream, P t

namespace Window.DrawsFrom

variable {P : Token → Prop} {w : Window}

theorem ofLexer {lexer : Lexer} (h : ∀ t ∈ lexer.stream, P t) (recovery : Recovery) :
    (ofLexer recovery lexer).DrawsFrom P := by
  have behind : ∀ t ∈ lexer.next.2.stream, P t := fun t mem => h t (lexer.stream_next_subset mem)
  refine ⟨h _ lexer.next_mem_stream, behind _ lexer.next.2.next_mem_stream, fun t mem => ?_⟩
  exact behind t (lexer.next.2.stream_next_subset mem)

theorem move (h : w.DrawsFrom P) (m : Move) : (w.move m).DrawsFrom P := by
  cases m with
  | next =>
    refine ⟨h.peek, h.stream _ w.lexer.next_mem_stream, fun t mem => ?_⟩
    exact h.stream t (w.lexer.stream_next_subset mem)
  | takeLexerDiagnostics =>
    have same : w.lexer.takeDiagnostics.2.stream = w.lexer.stream := Lexer.stream_congr rfl rfl
    exact ⟨h.current, h.peek, fun t mem => h.stream t (same ▸ mem)⟩
  | miss | clear | takeDiagnostics | log => exact ⟨h.current, h.peek, h.stream⟩

theorem replay (h : w.DrawsFrom P) (moves : List Move) : (w.replay moves).DrawsFrom P := by
  induction moves generalizing w with
  | nil => exact h
  | cons m moves ih => exact ih (h.move m)

theorem expect (h : w.DrawsFrom P) (kind : Kind) : (w.expect kind).2.DrawsFrom P := by
  rw [← w.move_expectMove]
  exact h.move _

theorem passed_sweepFrom (h : w.DrawsFrom P) {passed : Array Token} (before : ∀ t ∈ passed, P t) :
    ∀ t ∈ (w.sweepFrom passed).1, P t := by
  fun_induction sweepFrom passed w with
  | case1 => exact before
  | case2 passed w _ ih =>
    refine ih (h.move .next) fun t mem => ?_
    rcases Array.mem_push.mp mem with mem | rfl
    · exact before t mem
    · exact h.current

theorem sweep (h : w.DrawsFrom P) : w.sweep.2.DrawsFrom P := by
  rw [← w.replay_sweepMoves]
  exact h.replay _

theorem passed_sweep (h : w.DrawsFrom P) : ∀ t ∈ w.sweep.1, P t :=
  h.passed_sweepFrom fun t mem => absurd mem (Array.not_mem_empty t)

end Window.DrawsFrom

/-! ## Scripts -/

/-- A script makes its value of tokens that it has been shown. -/
def Script.DrawsFrom (P : Token → Prop) : Script → Prop
  | .done outcome => ∀ t ∈ outcome.tokens, P t
  | .next rest => ∀ w : Window, w.DrawsFrom P → (rest w).DrawsFrom P
  | .expect _ rest => ∀ met, ∀ w : Window, w.DrawsFrom P → (rest met w).DrawsFrom P
  | .sweep rest => ∀ passed : Array Token, (∀ t ∈ passed, P t) →
      ∀ w : Window, w.DrawsFrom P → (rest passed w).DrawsFrom P
  | .takeDiagnostics rest => ∀ ds, ∀ w : Window, w.DrawsFrom P → (rest ds w).DrawsFrom P
  | .takeLexerDiagnostics rest => ∀ ds, ∀ w : Window, w.DrawsFrom P → (rest ds w).DrawsFrom P
  | .parseProgram rest => ∀ program : Program, (∀ t ∈ program.tokens, P t) →
      ∀ w : Window, w.DrawsFrom P → (rest program w).DrawsFrom P

def Rule.DrawsFrom (P : Token → Prop) (rule : Rule) : Prop :=
  ∀ w : Window, w.DrawsFrom P → (rule w).DrawsFrom P

/-- A run gives a value made of tokens of one sort and leaves a window over such tokens. -/
structure Window.Within.Draws {α : Type} {bound : Nat} (run : Window.Within α bound)
    (P : Token → Prop) (tokens : α → List Token) : Prop where
  value : ∀ t ∈ tokens run.value, P t
  window : run.window.DrawsFrom P

/-- An attempt at a statement gives tokens of one sort and leaves a window over such tokens. -/
structure Window.Poised.Draws {bound : Nat} (attempt : Window.Poised Window.Attempt bound)
    (P : Token → Prop) : Prop where
  value : ∀ t ∈ attempt.value.tokens, P t
  window : attempt.window.DrawsFrom P

/-- An attempt that gives no statement gives no token. -/
theorem Window.Poised.draws_of_none {P : Token → Prop} {bound : Nat}
    {attempt : Window.Poised Window.Attempt bound} (none : attempt.value.statement = none)
    (shown : attempt.window.DrawsFrom P) : attempt.Draws P := by
  refine ⟨?_, shown⟩
  rw [Window.Attempt.tokens, none]
  exact List.forall_mem_nil _

section

variable {P : Token → Prop} {bound : Nat}
  {inner : (w : Window) → w.remaining < bound → Window.Within Program bound}
  (programs : ∀ w h, w.DrawsFrom P → (inner w h).Draws P Program.tokens)

include programs

theorem Script.DrawsFrom.run {script : Script} (draws : script.DrawsFrom P) {w : Window}
    (h : w.remaining < bound) (shown : w.DrawsFrom P) :
    (script.run inner w h).Draws P Outcome.tokens := by
  induction script generalizing w with
  | done outcome => exact ⟨draws, shown⟩
  | next rest ih => exact ih _ (draws _ (shown.move .next)) _ (shown.move .next)
  | expect kind rest ih =>
    have met := shown.expect kind
    exact ih _ _ (draws _ _ met) _ met
  | sweep rest ih => exact ih _ _ (draws _ shown.passed_sweep _ shown.sweep) _ shown.sweep
  | takeDiagnostics rest ih =>
    have taken := shown.move .takeDiagnostics
    exact ih _ _ (draws _ _ taken) _ taken
  | takeLexerDiagnostics rest ih =>
    have taken := shown.move .takeLexerDiagnostics
    exact ih _ _ (draws _ _ taken) _ taken
  | parseProgram rest ih =>
    have parsed := programs w h shown
    exact ih _ _ (draws _ parsed.value _ parsed.window) _ parsed.window

/-! ## Statements -/

namespace Window

variable {rule : Rule} (draws : rule.DrawsFrom P)

include draws

theorem draws_expression {w : Window} (h : w.remaining < bound) (shown : w.DrawsFrom P) :
    (expression rule inner w h).Draws P Outcome.tokens := by
  have read := (draws w shown).run programs h shown
  unfold expression
  dsimp only
  split
  · exact read
  · split
    · exact ⟨read.value, read.window.move .next⟩
    · exact read

theorem draws_complete {w : Window} (h : w.remaining < bound) (shown : w.DrawsFrom P)
    {build : Option Expression → Statement}
    (builds : ∀ value : Option Expression,
      (∀ t ∈ (Outcome.value value).tokens, P t) → ∀ t ∈ (build value).tokens, P t) :
    (complete rule inner w h build).Draws P := by
  have read := draws_expression programs draws h shown
  unfold complete
  cases outcome : (expression rule inner w h).value with
  | abandoned =>
    simp only [outcome]
    exact Poised.draws_of_none rfl read.window
  | value value =>
    have tokens := read.value
    rw [outcome] at tokens
    simp only [outcome]
    refine ⟨?_, read.window⟩
    simpa [Attempt.tokens, Attempt.statement] using builds value tokens

end Window

end

namespace Window

variable {P : Token → Prop} {rule : Rule} (draws : rule.DrawsFrom P) {w : Window}
  (h : w.current.kind ≠ .eof)
  {inner : (q : Window) → q.remaining < w.remaining → Within Program w.remaining}
  (programs : ∀ q below, q.DrawsFrom P → (inner q below).Draws P Program.tokens)
  (shown : w.DrawsFrom P)

include draws programs shown

theorem draws_statement : (w.statement rule h inner).Draws P := by
  have first : ∀ tokens : List Token, (∀ t ∈ tokens, P t) → ∀ t ∈ w.current :: tokens, P t :=
    fun tokens rest => List.forall_mem_cons.mpr ⟨shown.current, rest⟩
  unfold statement
  split
  · unfold letBinding
    split
    · have named := shown.move .next
      split
      · refine draws_complete programs draws _ ((named.move .next).move .next) fun value rest => ?_
        exact first _ (List.forall_mem_cons.mpr ⟨shown.peek, rest⟩)
      · exact Poised.draws_of_none rfl (named.expect .assign)
    · exact Poised.draws_of_none rfl (shown.expect .ident)
  · exact draws_complete programs draws _ (shown.move .next) fun value rest => first _ rest
  · exact Poised.draws_of_none rfl shown

end Window

/-! ## Programs -/

namespace Window

variable {P : Token → Prop} {rule : Rule} (draws : rule.DrawsFrom P)

include draws

theorem draws_parseFrom {bound : Nat} {statements : Array Statement}
    (before : ∀ t ∈ (Program.mk statements).tokens, P t) {w : Window} (h : w.remaining < bound)
    (shown : w.DrawsFrom P) : (parseFrom rule statements w h).Draws P Program.tokens := by
  have both := parseFrom_induction rule (motive := fun statements w program left =>
    (∀ t ∈ (Program.mk statements).tokens, P t) → w.DrawsFrom P →
      (∀ t ∈ program.tokens, P t) ∧ left.DrawsFrom P) ?_ ?_ statements h before shown
  · exact ⟨both.1, both.2⟩
  · intro statements w eof before shown
    exact ⟨before, shown.move (.log _)⟩
  · intro statements w more program left inner read programs rest before shown
    have draw : ∀ (q : Window) (below : q.remaining < w.remaining), q.DrawsFrom P →
        (inner q below).Draws P Program.tokens := by
      intro q below shown
      obtain ⟨value, window⟩ := programs q below (List.forall_mem_nil _) (shown.move .clear)
      exact ⟨value, window⟩
    have drawn : read.Draws P := draws_statement draws more draw shown
    have behind : (read.value.leave read.window).DrawsFrom P := by
      rw [← Attempt.replay_leaveMoves]
      exact drawn.window.replay _
    refine rest ?_ behind
    intro t mem
    obtain ⟨s, among, inside⟩ := List.mem_flatMap.mp mem
    rcases Array.mem_append.mp (Array.mem_toList_iff.mp among) with old | new
    · exact before t (List.mem_flatMap.mpr ⟨s, Array.mem_toList_iff.mpr old, inside⟩)
    · exact drawn.value t (List.mem_flatMap.mpr ⟨s, by simpa using new, inside⟩)

/-- A program is made of tokens of the sort that its window draws from. -/
theorem DrawsFrom.tokens_parseProgram {w : Window} (shown : w.DrawsFrom P) :
    ∀ t ∈ (w.parseProgram rule).1.tokens, P t :=
  (draws_parseFrom draws (List.forall_mem_nil _) _ (shown.move .clear)).value

end Window

/-! ## The standard rules -/

namespace Rule

variable {P : Token → Prop}

theorem tokens_currentName? {w : Window} (shown : w.DrawsFrom P) :
    ∀ t ∈ (Outcome.value (currentName? w)).tokens, P t := by
  unfold currentName?
  split
  · simpa [Outcome.tokens, Expression.tokens, Identifier.ofToken] using shown.current
  · exact List.forall_mem_nil _

/-- The name of a token that is shown. -/
theorem tokens_name {token : Token} (h : P token) :
    ∀ t ∈ (Outcome.value (some (.identifier (.ofToken token)))).tokens, P t := by
  simpa [Outcome.tokens, Expression.tokens, Identifier.ofToken] using h

theorem tokens_lastName? {program : Program} (h : ∀ t ∈ program.tokens, P t) :
    ∀ t ∈ (Outcome.value ((lastName? program).map .identifier)).tokens, P t := by
  cases found : lastName? program with
  | none => exact List.forall_mem_nil _
  | some name =>
    obtain ⟨statement, among, binds⟩ := List.mem_filterMap.mp (List.mem_of_getLast? found)
    have mem : name.token ∈ program.tokens := by
      refine List.mem_flatMap.mpr ⟨statement, among, ?_⟩
      cases statement with
      | letBinding keyword bound value =>
        obtain rfl := Option.some.inj binds
        exact List.mem_cons_of_mem _ List.mem_cons_self
      | returning => cases binds
    simpa [Outcome.tokens, Expression.tokens] using h _ mem

theorem skip_drawsFrom : skip.DrawsFrom P :=
  fun _ _ _ _ _ _ => List.forall_mem_nil _

end Rule

/-- Each standard rule makes its values of tokens that it has seen. -/
theorem StandardRule.drawsFrom (P : Token → Prop) (rule : StandardRule) :
    rule.rule.DrawsFrom P := by
  intro w shown
  cases rule with
  | skip => exact Rule.skip_drawsFrom w shown
  | nothing | refuse => exact List.forall_mem_nil _
  | name =>
    have named := Rule.tokens_currentName? shown
    simp only [StandardRule.rule, Rule.name]
    split
    · rename_i expression same
      rw [same] at named
      exact named
    · exact Rule.skip_drawsFrom w shown
  | single =>
    simp only [StandardRule.rule, Rule.single]
    split
    · exact Rule.tokens_currentName? shown
    · intro met _ _
      cases met with
      | true => exact Rule.tokens_currentName? shown
      | false => exact List.forall_mem_nil _
  | any => exact Rule.tokens_name shown.current
  | last =>
    intro passed seen _ _
    dsimp only [Script.DrawsFrom]
    cases found : (passed.toList.filter (·.kind == .ident)).getLast? with
    | none => exact List.forall_mem_nil _
    | some name =>
      have mem := (List.mem_filter.mp (List.mem_of_getLast? found)).1
      exact Rule.tokens_name (seen name (Array.mem_toList_iff.mp mem))
  | parenthesized =>
    simp only [StandardRule.rule, Rule.parenthesized]
    split
    · intro named inner shown
      cases named with
      | false => exact List.forall_mem_nil _
      | true =>
        intro closed _ _
        cases closed with
        | false => exact List.forall_mem_nil _
        | true => exact Rule.tokens_name shown.current
    · exact Rule.skip_drawsFrom w shown
  | nested =>
    simp only [StandardRule.rule, Rule.nested]
    split
    · intro _ _ program tokens _ _
      exact Rule.tokens_lastName? tokens
    · exact Rule.skip_drawsFrom w shown

/-! ## Whole texts -/

/-- Each token of the program of a text is a token of the text. -/
theorem mem_tokenize_of_mem_tokens {source : String} {file : FileId} {recovery : Recovery}
    (rule : StandardRule) {t : Token} (mem : t ∈ (readWith rule.rule source file recovery).1.tokens) :
    t ∈ (tokenize source file).1 := by
  have shown : (Window.ofLexer recovery (.ofText source file)).DrawsFrom
      (· ∈ (tokenize source file).1) :=
    Window.DrawsFrom.ofLexer (fun t mem => Array.mem_toList_iff.mp mem) recovery
  exact shown.tokens_parseProgram (rule.drawsFrom _) t mem

end Monkey
