import Monkey.Proofs.Parser.Follows
import Monkey.Proofs.Parser.Moves
import Monkey.Proofs.Parser.Relocation

/-! # Parsers that agree up to places

Two windows agree when they show and hold the same, once the spans of the one are mapped by
one function and those of the other by another. Moves keep that, and so does each standard
rule, since none looks at a span. Main statement: texts whose tokens agree are read to programs
and windows that agree. -/

namespace Monkey

/-! ## Mapped spans -/

theorem Token.kind_eq_of_relocate {f g : Span → Span} {t u : Token}
    (h : t.relocate f = u.relocate g) : t.kind = u.kind := by
  simpa using congrArg Token.kind h

def Outcome.relocate (f : Span → Span) : Outcome → Outcome
  | value expression => value (expression.map (Expression.relocate f))
  | abandoned => abandoned

def Program.relocate (f : Span → Span) (p : Program) : Program :=
  ⟨p.statements.map (Statement.relocate f)⟩

theorem Program.relocate_empty (f : Span → Span) : relocate f ⟨#[]⟩ = ⟨#[]⟩ := by
  rw [relocate, Array.map_empty]

/-- Programs alike stay alike when each gets one more statement, or none, that is alike. -/
theorem Program.relocate_append {f g : Span → Span}
    {statements statements' : Array Statement} {found found' : Option Statement}
    (before : (Program.mk statements).relocate f = (Program.mk statements').relocate g)
    (same : found.map (Statement.relocate f) = found'.map (Statement.relocate g)) :
    (Program.mk (statements ++ found.toList.toArray)).relocate f =
      (Program.mk (statements' ++ found'.toList.toArray)).relocate g := by
  have last : ∀ (f : Span → Span) (found : Option Statement),
      found.toList.toArray.map (Statement.relocate f) =
        (found.map (Statement.relocate f)).toList.toArray := by
    intro f found
    cases found <;> simp
  have earlier := congrArg Program.statements before
  simp only [Program.relocate] at earlier
  simp only [Program.relocate, Array.map_append, last, earlier, same]

def Window.Attempt.relocate (f : Span → Span) : Attempt → Attempt
  | parsed statement => parsed (statement.relocate f)
  | nothing => nothing
  | failed => failed

/-- The name of a token stands where the token stands. -/
theorem Outcome.relocate_name (f : Span → Span) (t : Token) :
    (value (some (.identifier (.ofToken t)))).relocate f =
      value (some (.identifier (.ofToken (t.relocate f)))) := rfl

theorem Outcome.relocate_names (f : Span → Span) (name : Option Identifier) :
    (value (name.map .identifier)).relocate f =
      value ((name.map (Identifier.relocate f)).map .identifier) := by
  rw [relocate, Option.map_map, Option.map_map]
  rfl

/-- A diagnostic about two tokens stands where they stand. -/
theorem Diagnostic.relocate_mismatch (f : Span → Span) (kind : Kind) (after found : Token) :
    (mismatch kind after found).relocate f = mismatch kind (after.relocate f) (found.relocate f) :=
  rfl

theorem Rule.lastName?_relocate (f : Span → Span) (program : Program) :
    lastName? (program.relocate f) = (lastName? program).map (Identifier.relocate f) := by
  rw [lastName?, lastName?, Program.relocate, Array.toList_map, List.filterMap_map,
    ← List.getLast?_map, List.map_filterMap]
  refine congrArg List.getLast? (List.filterMap_congr fun s _ => ?_)
  cases s <;> rfl

namespace Window

/-! ## Windows that agree -/

/-- Two windows show and hold the same, once their spans are mapped. -/
structure Agree (f g : Span → Span) (w w' : Window) : Prop where
  current : w.current.relocate f = w'.current.relocate g
  peek : w.peek.relocate f = w'.peek.relocate g
  stream : w.lexer.stream.map (Token.relocate f) = w'.lexer.stream.map (Token.relocate g)
  recorded : w.lexer.diagnostics.map (Diagnostic.relocate f) =
    w'.lexer.diagnostics.map (Diagnostic.relocate g)
  diagnostics : w.diagnostics.map (Diagnostic.relocate f) =
    w'.diagnostics.map (Diagnostic.relocate g)
  recovery : w.recovery = w'.recovery

end Window

namespace Lexer

variable {f g : Span → Span} {lexer other : Lexer}

/-- Lexers with the same tokens to come give the same token and then have the same to come. -/
theorem next_agree
    (h : lexer.stream.map (Token.relocate f) = other.stream.map (Token.relocate g)) :
    lexer.next.1.relocate f = other.next.1.relocate g ∧
      lexer.next.2.stream.map (Token.relocate f) = other.next.2.stream.map (Token.relocate g) := by
  -- Behind the end the stream does not shrink: the end stays as its only token.
  have stream : ∀ l : Lexer, ∃ rest, l.stream = l.next.1 :: rest ∧
      (if l.next.1.kind = .eof then l.next.2.stream = [l.next.1] else l.next.2.stream = rest) := by
    intro l
    by_cases eof : l.next.1.kind = .eof
    · have again : l.next.2.next.1.kind = .eof := by rw [next_next_of_eof eof, eof]
      exact ⟨[], stream_of_eof eof, by rw [if_pos eof, stream_of_eof again, next_next_of_eof eof]⟩
    · exact ⟨_, stream_of_ne_eof eof, by rw [if_neg eof]⟩
  obtain ⟨rest, all, behind⟩ := stream lexer
  obtain ⟨rest', all', behind'⟩ := stream other
  rw [all, all', List.map_cons, List.map_cons] at h
  obtain ⟨first, more⟩ := List.cons.inj h
  have kinds := Token.kind_eq_of_relocate first
  refine ⟨first, ?_⟩
  rw [← kinds] at behind'
  split at behind
  · rename_i eof
    rw [if_pos eof] at behind'
    rw [behind, behind', List.map_singleton, List.map_singleton, first]
  · rename_i noEof
    rw [if_neg noEof] at behind'
    rw [behind, behind', more]

theorem recorded_next_agree
    (h : lexer.stream.map (Token.relocate f) = other.stream.map (Token.relocate g))
    (held : lexer.diagnostics.map (Diagnostic.relocate f) =
      other.diagnostics.map (Diagnostic.relocate g)) :
    lexer.next.2.diagnostics.map (Diagnostic.relocate f) =
      other.next.2.diagnostics.map (Diagnostic.relocate g) := by
  have told : ∀ (f : Span → Span) (t : Token),
      (([t].filter Token.isIllegal).map Token.illegalCharacter).map (Diagnostic.relocate f) =
        ([t.relocate f].filter Token.isIllegal).map Token.illegalCharacter := by
    intro f t
    cases illegal : t.isIllegal <;> simp [illegal, Token.illegalCharacter_relocate]
  apply Array.toList_inj.mp
  have same := congrArg Array.toList held
  rw [Array.toList_map, Array.toList_map] at same ⊢
  rw [diagnostics_next, diagnostics_next, List.map_append, List.map_append, same, told, told,
    (next_agree h).1]

end Lexer

namespace Window

namespace Agree

variable {f g : Span → Span} {w w' : Window}

theorem current_kind (h : w.Agree f g w') : w.current.kind = w'.current.kind :=
  Token.kind_eq_of_relocate h.current

theorem peek_kind (h : w.Agree f g w') : w.peek.kind = w'.peek.kind :=
  Token.kind_eq_of_relocate h.peek

theorem next (h : w.Agree f g w') : w.next.Agree f g w'.next := by
  obtain ⟨token, stream⟩ := Lexer.next_agree h.stream
  exact ⟨h.peek, token, stream, Lexer.recorded_next_agree h.stream h.recorded, h.diagnostics,
    h.recovery⟩

theorem log (h : w.Agree f g w') (event event' : Event) :
    (w.log event).Agree f g (w'.log event') :=
  ⟨h.current, h.peek, h.stream, h.recorded, h.diagnostics, h.recovery⟩

theorem cleared (h : w.Agree f g w') : w.cleared.Agree f g w'.cleared :=
  ⟨h.current, h.peek, h.stream, h.recorded, by rw [Window.cleared, Window.cleared, Array.map_empty,
    Array.map_empty], h.recovery⟩

theorem expect (h : w.Agree f g w') (kind : Kind) :
    (w.expect kind).1 = (w'.expect kind).1 ∧ (w.expect kind).2.Agree f g (w'.expect kind).2 := by
  by_cases met : w.peek.kind = kind
  · rw [expect_of_eq met, expect_of_eq (h.peek_kind ▸ met)]
    exact ⟨rfl, h.next⟩
  · rw [expect_of_ne met, expect_of_ne (h.peek_kind ▸ met)]
    refine ⟨rfl, h.current, h.peek, h.stream, h.recorded, ?_, h.recovery⟩
    have missed : (w.unexpected kind).relocate f = (w'.unexpected kind).relocate g := by
      show (Diagnostic.mismatch kind w.current w.peek).relocate f =
        (Diagnostic.mismatch kind w'.current w'.peek).relocate g
      rw [Diagnostic.relocate_mismatch, Diagnostic.relocate_mismatch, h.current, h.peek]
    rw [Array.map_push, Array.map_push, h.diagnostics, missed]

theorem sweepFrom (h : w.Agree f g w') {passed passed' : Array Token}
    (before : passed.map (Token.relocate f) = passed'.map (Token.relocate g)) :
    (w.sweepFrom passed).1.map (Token.relocate f) =
        (w'.sweepFrom passed').1.map (Token.relocate g) ∧
      (w.sweepFrom passed).2.Agree f g (w'.sweepFrom passed').2 := by
  fun_induction Window.sweepFrom passed w generalizing passed' w' with
  | case1 passed w stop =>
    rw [h.current_kind] at stop
    rw [Window.sweepFrom, if_pos stop]
    exact ⟨before, h⟩
  | case2 passed w more ih =>
    rw [h.current_kind] at more
    have turn : w'.sweepFrom passed' = w'.next.sweepFrom (passed'.push w'.current) := by
      rw [Window.sweepFrom, if_neg more]
    rw [turn]
    exact ih h.next (by rw [Array.map_push, Array.map_push, before, h.current])

theorem sweep (h : w.Agree f g w') :
    w.sweep.1.map (Token.relocate f) = w'.sweep.1.map (Token.relocate g) ∧
      w.sweep.2.Agree f g w'.sweep.2 :=
  h.sweepFrom (by rw [Array.map_empty, Array.map_empty])

theorem recover (h : w.Agree f g w') : w.recover.Agree f g w'.recover := by
  unfold Window.recover
  rw [← h.recovery]
  split
  · exact h
  · exact h.sweep.2.log _ _

theorem leave (h : w.Agree f g w') {attempt attempt' : Attempt}
    (same : attempt.relocate f = attempt'.relocate g) :
    (attempt.leave w).Agree f g (attempt'.leave w') := by
  cases attempt <;> cases attempt' <;> try cases same
  · exact (h.log _ _).next
  · exact h.next
  · exact h.recover.next

end Agree

/-- Two runs come to results and to windows that agree. -/
structure Within.Agree {α : Type} {bound bound' : Nat} (relocate : (Span → Span) → α → α)
    (f g : Span → Span) (run : Within α bound) (run' : Within α bound') : Prop where
  value : relocate f run.value = relocate g run'.value
  window : run.window.Agree f g run'.window

/-- Two attempts come to statements and to windows that agree. -/
structure Poised.Agree {bound bound' : Nat} (f g : Span → Span) (attempt : Poised Attempt bound)
    (attempt' : Poised Attempt bound') : Prop where
  value : attempt.value.relocate f = attempt'.value.relocate g
  window : attempt.window.Agree f g attempt'.window

end Window

open Window

/-! ## Rules that look at no span -/

/-- On windows that agree, a rule comes to outcomes and to windows that agree, given that
programs in the middle of the value do. -/
def Rule.IgnoresSpans (rule : Rule) : Prop :=
  ∀ {f g : Span → Span} {bound bound' : Nat}
    {inner : (w : Window) → w.remaining < bound → Within Program bound}
    {inner' : (w : Window) → w.remaining < bound' → Within Program bound'},
    (∀ q below q' below', q.Agree f g q' →
      Within.Agree Program.relocate f g (inner q below) (inner' q' below')) →
    ∀ {w w' : Window} (h : w.remaining < bound) (h' : w'.remaining < bound'), w.Agree f g w' →
      Within.Agree Outcome.relocate f g ((rule w).run inner w h) ((rule w').run inner' w' h')

namespace Rule

theorem name_agree {f g : Span → Span} {t t' : Token} (h : t.relocate f = t'.relocate g) :
    (Outcome.value (some (.identifier (.ofToken t)))).relocate f =
      (Outcome.value (some (.identifier (.ofToken t')))).relocate g := by
  rw [Outcome.relocate_name, Outcome.relocate_name, h]

theorem currentName?_agree {f g : Span → Span} {w w' : Window} (h : w.Agree f g w') :
    (Outcome.value (currentName? w)).relocate f = (Outcome.value (currentName? w')).relocate g := by
  unfold currentName?
  rw [h.current_kind]
  split
  · exact name_agree h.current
  · rfl

theorem skip_ignoresSpans : Rule.skip.IgnoresSpans :=
  fun _ _ _ _ _ agree => ⟨rfl, agree.sweep.2⟩

theorem name_ignoresSpans : Rule.name.IgnoresSpans := by
  intro f g bound bound' inner inner' programs w w' h h' agree
  unfold Rule.name currentName?
  by_cases named : w.current.kind = .ident
  · rw [if_pos named, if_pos (agree.current_kind ▸ named)]
    exact ⟨name_agree agree.current, agree⟩
  · rw [if_neg named, if_neg (agree.current_kind ▸ named)]
    exact skip_ignoresSpans programs h h' agree

theorem single_ignoresSpans : Rule.single.IgnoresSpans := by
  intro f g bound bound' inner inner' programs w w' h h' agree
  unfold Rule.single
  rw [agree.peek_kind]
  split
  · exact ⟨currentName?_agree agree, agree⟩
  · obtain ⟨same, moved⟩ := agree.expect .semicolon
    refine ⟨?_, moved⟩
    simp only [Script.run, same]
    split
    · exact currentName?_agree agree
    · rfl

theorem last_ignoresSpans : Rule.last.IgnoresSpans := by
  intro f g bound bound' inner inner' programs w w' h h' agree
  obtain ⟨passed, swept⟩ := agree.sweep
  refine ⟨?_, swept⟩
  have names : ∀ (f : Span → Span) (passed : Array Token),
      (Outcome.value ((passed.toList.filter (·.kind == .ident)).getLast?.map
        (.identifier ∘ .ofToken))).relocate f =
      .value (((passed.map (Token.relocate f)).toList.filter (·.kind == .ident)).getLast?.map
        (.identifier ∘ .ofToken)) := by
    intro f passed
    rw [← Option.map_map, Outcome.relocate_names, Array.toList_map, List.filter_map,
      List.getLast?_map]
    simp only [Option.map_map]
    rfl
  calc _ = _ := names f w.sweep.1
    _ = _ := by rw [passed]
    _ = _ := (names g w'.sweep.1).symm

theorem parenthesized_ignoresSpans : Rule.parenthesized.IgnoresSpans := by
  intro f g bound bound' inner inner' programs w w' h h' agree
  unfold Rule.parenthesized
  rw [agree.current_kind]
  split
  · obtain ⟨same, opened⟩ := agree.expect .ident
    simp only [Script.run, same]
    split
    · obtain ⟨same', closed⟩ := opened.expect .rparen
      refine ⟨?_, closed⟩
      simp only [Script.run, same']
      split
      · exact name_agree opened.current
      · rfl
    · exact ⟨rfl, opened⟩
  · exact skip_ignoresSpans programs h h' agree

theorem nested_ignoresSpans : Rule.nested.IgnoresSpans := by
  intro f g bound bound' inner inner' programs w w' h h' agree
  unfold Rule.nested
  rw [agree.current_kind]
  split
  · have read := programs w.next (remaining_next_lt_bound h) w'.next (remaining_next_lt_bound h')
      agree.next
    refine ⟨?_, read.window⟩
    have names := congrArg lastName? read.value
    rw [lastName?_relocate, lastName?_relocate] at names
    calc _ = _ := Outcome.relocate_names f _
      _ = _ := by rw [names]
      _ = _ := (Outcome.relocate_names g _).symm
  · exact skip_ignoresSpans programs h h' agree

end Rule

theorem StandardRule.ignoresSpans (rule : StandardRule) : rule.rule.IgnoresSpans := by
  cases rule with
  | skip => exact Rule.skip_ignoresSpans
  | name => exact Rule.name_ignoresSpans
  | single => exact Rule.single_ignoresSpans
  | last => exact Rule.last_ignoresSpans
  | parenthesized => exact Rule.parenthesized_ignoresSpans
  | nested => exact Rule.nested_ignoresSpans
  | nothing | refuse => exact fun _ _ _ _ _ agree => ⟨rfl, agree⟩
  | any => exact fun _ _ _ _ _ agree => ⟨Rule.name_agree agree.current, agree⟩

namespace Window

/-! ## Statements -/

section

variable {rule : Rule} (ignores : rule.IgnoresSpans) {f g : Span → Span} {bound bound' : Nat}
  {inner : (w : Window) → w.remaining < bound → Within Program bound}
  {inner' : (w : Window) → w.remaining < bound' → Within Program bound'}
  (programs : ∀ q below q' below', q.Agree f g q' →
    Within.Agree Program.relocate f g (inner q below) (inner' q' below'))
  {w w' : Window} (h : w.remaining < bound) (h' : w'.remaining < bound') (agree : w.Agree f g w')

include ignores programs agree

theorem expression_agree :
    Within.Agree Outcome.relocate f g (expression rule inner w h) (expression rule inner' w' h') := by
  have read := ignores programs h h' agree
  have value := read.value
  unfold expression
  cases outcome : ((rule w).run inner w h).value with
  | abandoned =>
    cases outcome' : ((rule w').run inner' w' h').value with
    | value => simp [outcome, outcome', Outcome.relocate] at value
    | abandoned =>
      simp only [outcome, outcome']
      exact read
  | value expression =>
    cases outcome' : ((rule w').run inner' w' h').value with
    | abandoned => simp [outcome, outcome', Outcome.relocate] at value
    | value expression' =>
      simp only [outcome, outcome', read.window.peek_kind]
      split
      · exact ⟨by simpa [outcome, outcome'] using value, read.window.next⟩
      · exact read

theorem complete_agree {build build' : Option Expression → Statement}
    (builds : ∀ value value' : Option Expression,
      value.map (Expression.relocate f) = value'.map (Expression.relocate g) →
      (build value).relocate f = (build' value').relocate g) :
    Poised.Agree f g (complete rule inner w h build) (complete rule inner' w' h' build') := by
  have read := expression_agree ignores programs h h' agree
  have value := read.value
  refine ⟨?_, read.window⟩
  cases outcome : (Window.expression rule inner w h).value with
  | abandoned =>
    cases outcome' : (Window.expression rule inner' w' h').value with
    | value => simp [outcome, outcome', Outcome.relocate] at value
    | abandoned =>
      simp only [complete, outcome, outcome']
      rfl
  | value found =>
    cases outcome' : (Window.expression rule inner' w' h').value with
    | abandoned => simp [outcome, outcome', Outcome.relocate] at value
    | value found' =>
      rw [outcome, outcome'] at value
      simp only [complete, outcome, outcome']
      exact congrArg Attempt.parsed (builds found found' (Outcome.value.inj value))

end

section

variable {rule : Rule} (ignores : rule.IgnoresSpans) {f g : Span → Span} {w w' : Window}
  (more : w.current.kind ≠ .eof) (more' : w'.current.kind ≠ .eof)
  {inner : (q : Window) → q.remaining < w.remaining → Within Program w.remaining}
  {inner' : (q : Window) → q.remaining < w'.remaining → Within Program w'.remaining}
  (programs : ∀ q below q' below', q.Agree f g q' →
    Within.Agree Program.relocate f g (inner q below) (inner' q' below'))
  (agree : w.Agree f g w')

include ignores programs agree

theorem letBinding_agree :
    Poised.Agree f g (w.letBinding rule more inner) (w'.letBinding rule more' inner') := by
  unfold letBinding
  by_cases named : w.peek.kind = .ident
  · have named' : w'.peek.kind = .ident := by rw [← agree.peek_kind]; exact named
    rw [dif_pos named, dif_pos named']
    by_cases bound : w.next.peek.kind = .assign
    · have bound' : w'.next.peek.kind = .assign := by rw [← agree.next.peek_kind]; exact bound
      rw [dif_pos bound, dif_pos bound']
      refine complete_agree ignores programs _ _ agree.next.next.next fun value value' same => ?_
      calc Statement.relocate f (.letBinding w.current (.ofToken w.peek) value)
          = .letBinding (w.current.relocate f) (.ofToken (w.peek.relocate f))
              (value.map (Expression.relocate f)) := rfl
        _ = .letBinding (w'.current.relocate g) (.ofToken (w'.peek.relocate g))
              (value'.map (Expression.relocate g)) := by rw [agree.current, agree.peek, same]
    · have unbound : w'.next.peek.kind ≠ .assign := by rw [← agree.next.peek_kind]; exact bound
      rw [dif_neg bound, dif_neg unbound]
      exact ⟨rfl, (agree.next.expect .assign).2⟩
  · have unnamed : w'.peek.kind ≠ .ident := by rw [← agree.peek_kind]; exact named
    rw [dif_neg named, dif_neg unnamed]
    exact ⟨rfl, (agree.expect .ident).2⟩

theorem statement_agree :
    Poised.Agree f g (w.statement rule more inner) (w'.statement rule more' inner') := by
  have kinds := agree.current_kind
  cases word : w.current.kind with
  | letWord =>
    simp only [statement, word, ← kinds]
    exact letBinding_agree ignores more more' programs agree
  | returnWord =>
    simp only [statement, word, ← kinds]
    refine complete_agree ignores programs _ _ agree.next fun value value' same => ?_
    simp only [Statement.relocate, same, agree.current]
  | _ =>
    simp only [statement, word, ← kinds]
    exact ⟨rfl, agree⟩

end

/-! ## Programs -/

theorem Attempt.relocate_statement (f : Span → Span) (attempt : Attempt) :
    (attempt.relocate f).statement = attempt.statement.map (Statement.relocate f) := by
  cases attempt <;> rfl

/-- On windows that agree, the loop comes to programs and to windows that agree. -/
theorem parseFrom_agree {rule : Rule} (ignores : rule.IgnoresSpans) {f g : Span → Span}
    {bound bound' : Nat} {statements statements' : Array Statement} {w w' : Window}
    (h : w.remaining < bound) (h' : w'.remaining < bound')
    (before : (Program.mk statements).relocate f = (Program.mk statements').relocate g)
    (agree : w.Agree f g w') :
    Within.Agree Program.relocate f g (parseFrom rule statements w h)
      (parseFrom rule statements' w' h') := by
  suffices both : ∀ (statements' : Array Statement) (w' : Window) (bound' : Nat)
      (h' : w'.remaining < bound'),
      (Program.mk statements).relocate f = (Program.mk statements').relocate g → w.Agree f g w' →
      (parseFrom rule statements w h).value.relocate f =
          (parseFrom rule statements' w' h').value.relocate g ∧
        (parseFrom rule statements w h).window.Agree f g (parseFrom rule statements' w' h').window by
    obtain ⟨value, window⟩ := both statements' w' bound' h' before agree
    exact ⟨value, window⟩
  -- The one run is taken turn by turn; the other one is any run from a window that agrees.
  refine parseFrom_induction rule (motive := fun statements w program left =>
    ∀ (statements' : Array Statement) (w' : Window) (bound' : Nat) (h' : w'.remaining < bound'),
      (Program.mk statements).relocate f = (Program.mk statements').relocate g → w.Agree f g w' →
      program.relocate f = (parseFrom rule statements' w' h').value.relocate g ∧
        left.Agree f g (parseFrom rule statements' w' h').window) ?_ ?_ statements h
  · intro statements w eof statements' w' bound' h' before agree
    rw [parseFrom_of_eof rule statements' h' (agree.current_kind ▸ eof)]
    exact ⟨before, agree.log _ _⟩
  · intro statements w more program left inner read programs rest statements' w' bound' h' before
      agree
    have more' : w'.current.kind ≠ .eof := agree.current_kind ▸ more
    obtain ⟨below', same⟩ := parseFrom_of_ne_eof rule statements' h' more'
    have attempts : Poised.Agree f g read
        (w'.statement rule more' fun q below => parseFrom rule #[] q.cleared below) := by
      refine statement_agree ignores more more' (fun q below q' below' agree => ?_) agree
      obtain ⟨value, window⟩ := programs q below #[] q'.cleared _ below'
        (by rw [Program.relocate_empty, Program.relocate_empty]) agree.cleared
      exact ⟨value, window⟩
    rw [same]
    refine rest _ _ _ below' ?_ (attempts.window.leave attempts.value)
    have found := congrArg Attempt.statement attempts.value
    rw [Attempt.relocate_statement, Attempt.relocate_statement] at found
    exact Program.relocate_append before found

end Window

/-! ## Whole texts -/

/-- Windows over lexers with the same to come agree. -/
theorem Window.agree_ofLexer {f g : Span → Span} {lexer other : Lexer}
    (stream : lexer.stream.map (Token.relocate f) = other.stream.map (Token.relocate g))
    (recorded : lexer.diagnostics.map (Diagnostic.relocate f) =
      other.diagnostics.map (Diagnostic.relocate g)) (recovery : Recovery) :
    (Window.ofLexer recovery lexer).Agree f g (Window.ofLexer recovery other) := by
  obtain ⟨first, more⟩ := Lexer.next_agree stream
  obtain ⟨second, rest⟩ := Lexer.next_agree more
  exact ⟨first, second, rest,
    Lexer.recorded_next_agree more (Lexer.recorded_next_agree stream recorded),
    by rw [Window.ofLexer, Window.ofLexer, Array.map_empty, Array.map_empty], rfl⟩

theorem readWith_agree {rule : Rule} (ignores : rule.IgnoresSpans) {f g : Span → Span}
    {source other : String} {file file' : FileId}
    (stream : (tokenize source file).1.toList.map (Token.relocate f) =
      (tokenize other file').1.toList.map (Token.relocate g)) (recovery : Recovery) :
    let read := readWith rule source file recovery
    let read' := readWith rule other file' recovery
    read.1.relocate f = read'.1.relocate g ∧ read.2.Agree f g read'.2 := by
  have start : (Window.ofLexer recovery (.ofText source file)).Agree f g
      (Window.ofLexer recovery (.ofText other file')) :=
    Window.agree_ofLexer stream (by
      show (#[] : Diagnostics).map _ = (#[] : Diagnostics).map _
      rw [Array.map_empty, Array.map_empty]) recovery
  obtain ⟨value, window⟩ := Window.parseFrom_agree ignores (Nat.lt_succ_self _)
    (Nat.lt_succ_self _) (by rw [Program.relocate_empty, Program.relocate_empty]) start.cleared
  exact ⟨value, window⟩

end Monkey
