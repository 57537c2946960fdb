import Monkey.Proofs.Parser.Provenance
import Monkey.Proofs.Parser.Progress

/-! # The order of a program

The statements of a program stand in the stream of tokens one behind the other, each from its
keyword to its value. A rule keeps the order when the value that it gives stands between the
first token of the value and the one on which the rule stops. Main statement: with such a
rule the statements of a program, also of one in the middle of a value, stand in order. -/

namespace Monkey

def Expression.token : Expression → Token
  | identifier name => name.token

/-! ## Statements in a stream -/

/-- A statement stands in a stream of tokens, from the place of its keyword to the place of
its value, or of the last part that is there. -/
inductive Statement.Stands (stream : Nat → Token) : Statement → Nat → Nat → Prop
  | binding {i : Nat} (word : (stream i).kind = .letWord) (named : (stream (i + 1)).kind = .ident)
      (bound : (stream (i + 2)).kind = .assign) :
      Stands stream (.letBinding (stream i) (.ofToken (stream (i + 1))) none) i (i + 1)
  | bindingValue {i k : Nat} {value : Expression} (word : (stream i).kind = .letWord)
      (named : (stream (i + 1)).kind = .ident) (bound : (stream (i + 2)).kind = .assign)
      (behind : i + 2 < k) (same : value.token = stream k) :
      Stands stream (.letBinding (stream i) (.ofToken (stream (i + 1))) (some value)) i k
  | returning {i : Nat} (word : (stream i).kind = .returnWord) :
      Stands stream (.returning (stream i) none) i i
  | returningValue {i k : Nat} {value : Expression} (word : (stream i).kind = .returnWord)
      (behind : i < k) (same : value.token = stream k) :
      Stands stream (.returning (stream i) (some value)) i k

/-- Statements stand in a stream one behind the other, from one place on and before another. -/
inductive InOrder (stream : Nat → Token) : Nat → List Statement → Nat → Prop
  | nil {i j : Nat} (le : i ≤ j) : InOrder stream i [] j
  | cons {i first final j : Nat} {s : Statement} {statements : List Statement} (le : i ≤ first)
      (stands : s.Stands stream first final) (more : InOrder stream (final + 1) statements j) :
      InOrder stream i (s :: statements) j

section

variable {stream : Nat → Token} {i j first final : Nat} {s : Statement}
  {statements : List Statement}

theorem Statement.Stands.le (h : s.Stands stream first final) : first ≤ final := by
  cases h <;> omega

/-- The name that a statement binds stands between its keyword and its end. -/
theorem Statement.Stands.exists_name {keyword : Token} {name : Identifier}
    {value : Option Expression} (h : (letBinding keyword name value).Stands stream first final) :
    ∃ k, first ≤ k ∧ k ≤ final ∧ name.token = stream k := by
  cases h with
  | binding => exact ⟨first + 1, by omega, Nat.le_refl _, rfl⟩
  | bindingValue _ _ _ behind => exact ⟨first + 1, by omega, by omega, rfl⟩

namespace InOrder

theorem le (h : InOrder stream i statements j) : i ≤ j := by
  induction h with
  | nil le => exact le
  | cons le stands _ ih =>
    have inside := stands.le
    omega

theorem of_le {k : Nat} (le : i ≤ k) (h : InOrder stream k statements j) :
    InOrder stream i statements j := by
  cases h with
  | nil le' => exact .nil (Nat.le_trans le le')
  | cons le' stands more => exact .cons (Nat.le_trans le le') stands more

theorem exists_stands (h : InOrder stream i statements j) (mem : s ∈ statements) :
    ∃ first final, i ≤ first ∧ final < j ∧ s.Stands stream first final := by
  induction h with
  | nil => cases mem
  | @cons i first final j _ _ le stands more ih =>
    rcases List.mem_cons.mp mem with rfl | mem
    · exact ⟨first, final, le, more.le, stands⟩
    · obtain ⟨first', final', le', less, stands'⟩ := ih mem
      have inside := stands.le
      exact ⟨first', final', by omega, less, stands'⟩

/-- Each statement ends before the next one begins. -/
theorem pairwise (h : InOrder stream i statements j) :
    statements.Pairwise fun a b => ∃ first final first' final',
      a.Stands stream first final ∧ b.Stands stream first' final' ∧ final < first' := by
  induction h with
  | nil => exact .nil
  | cons _ stands more ih =>
    refine .cons (fun b mem => ?_) ih
    obtain ⟨first', final', le, _, stands'⟩ := more.exists_stands mem
    exact ⟨_, _, first', final', stands, stands', le⟩

end InOrder

end

namespace Window

/-! ## Windows in a stream -/

/-- The window stands somewhere in a stream, whatever diagnostics were handed out before. -/
def IsAt (w : Window) (tokens : List Token) (last : Token) (i : Nat) : Prop :=
  ∃ handed, w.StandsAt tokens last i handed

/-- A run comes from one place of a stream to another, with a result that has to do with both. -/
def Within.Comes {α : Type} {bound : Nat} (run : Within α bound) (tokens : List Token)
    (last : Token) (i : Nat) (result : α → Nat → Prop) : Prop :=
  ∃ j, i ≤ j ∧ run.window.IsAt tokens last j ∧ result run.value j

/-- The tokens of an outcome stand between two places of a stream. -/
def Picks (tokens : List Token) (last : Token) (i : Nat) (outcome : Outcome) (j : Nat) : Prop :=
  ∀ t ∈ outcome.tokens, ∃ k, i ≤ k ∧ k ≤ j ∧ t = endless (tokens ++ [last]) k

/-- The statements of a program stand in order between two places of a stream. -/
def Orders (tokens : List Token) (last : Token) (i : Nat) (program : Program) (j : Nat) : Prop :=
  InOrder (endless (tokens ++ [last])) i program.statements.toList j

namespace IsAt

variable {w : Window} {tokens : List Token} {last : Token} {i : Nat}

theorem current_eq (h : w.IsAt tokens last i) : w.current = endless (tokens ++ [last]) i :=
  h.elim fun _ stands => stands.current_eq

theorem peek_eq (h : w.IsAt tokens last i) : w.peek = endless (tokens ++ [last]) (i + 1) :=
  h.elim fun _ stands => stands.peek_eq

theorem replay (h : w.IsAt tokens last i) (moves : List Move) :
    (w.replay moves).IsAt tokens last (i + stepsOf moves) :=
  h.elim fun _ stands => ⟨_, stands.replay moves⟩

theorem next (h : w.IsAt tokens last i) : w.next.IsAt tokens last (i + 1) := h.replay [.next]

theorem cleared (h : w.IsAt tokens last i) : w.cleared.IsAt tokens last i := h.replay [.clear]

theorem expect (h : w.IsAt tokens last i) (kind : Kind) :
    ∃ j, i ≤ j ∧ (w.expect kind).2.IsAt tokens last j := by
  have moved := h.replay [w.expectMove kind]
  rw [replay_cons, move_expectMove] at moved
  exact ⟨_, Nat.le_add_right _ _, moved⟩

theorem sweepFrom (h : w.IsAt tokens last i) {start : Nat} {passed : Array Token}
    (before : ∀ t ∈ passed, ∃ k, start ≤ k ∧ k ≤ i ∧ t = endless (tokens ++ [last]) k)
    (le : start ≤ i) :
    ∃ j, i ≤ j ∧ (w.sweepFrom passed).2.IsAt tokens last j ∧
      ∀ t ∈ (w.sweepFrom passed).1, ∃ k, start ≤ k ∧ k ≤ j ∧ t = endless (tokens ++ [last]) k := by
  fun_induction Window.sweepFrom passed w generalizing i with
  | case1 => exact ⟨i, Nat.le_refl _, h, before⟩
  | case2 passed w _ ih =>
    have before' : ∀ t ∈ passed.push w.current,
        ∃ k, start ≤ k ∧ k ≤ i + 1 ∧ t = endless (tokens ++ [last]) k := by
      intro t mem
      rcases Array.mem_push.mp mem with mem | rfl
      · obtain ⟨k, lower, upper, same⟩ := before t mem
        exact ⟨k, lower, by omega, same⟩
      · exact ⟨i, le, by omega, h.current_eq⟩
    obtain ⟨j, further, stops, among⟩ := ih h.next before' (by omega)
    exact ⟨j, by omega, stops, among⟩

/-- A sweep passes over the tokens between the place where it begins and the one where it ends. -/
theorem sweep (h : w.IsAt tokens last i) :
    ∃ j, i ≤ j ∧ w.sweep.2.IsAt tokens last j ∧
      ∀ t ∈ w.sweep.1, ∃ k, i ≤ k ∧ k ≤ j ∧ t = endless (tokens ++ [last]) k :=
  h.sweepFrom (fun t mem => absurd mem (Array.not_mem_empty t)) (Nat.le_refl i)

end IsAt

/-! ## Outcomes between two places -/

section

variable {tokens : List Token} {last : Token} {i j : Nat} {program : Program}

theorem picks_none : Picks tokens last i (.value none) j := List.forall_mem_nil _

theorem picks_abandoned : Picks tokens last i .abandoned j := List.forall_mem_nil _

/-- The name of a token that stands between the two places. -/
theorem picks_name {t : Token} {k : Nat} (lower : i ≤ k) (upper : k ≤ j)
    (same : t = endless (tokens ++ [last]) k) :
    Picks tokens last i (.value (some (.identifier (.ofToken t)))) j := by
  intro u mem
  obtain rfl : u = t := by simpa [Outcome.tokens, Expression.tokens, Identifier.ofToken] using mem
  exact ⟨k, lower, upper, same⟩

theorem picks_currentName? {w : Window} (h : w.IsAt tokens last i) (le : i ≤ j) :
    Picks tokens last i (.value (Rule.currentName? w)) j := by
  unfold Rule.currentName?
  split
  · exact picks_name (Nat.le_refl i) le h.current_eq
  · exact picks_none

theorem picks_lastName? (h : Orders tokens last i program j) :
    Picks tokens last i (.value ((Rule.lastName? program).map .identifier)) j := by
  cases found : Rule.lastName? program with
  | none => exact picks_none
  | some name =>
    obtain ⟨statement, among, binds⟩ := List.mem_filterMap.mp (List.mem_of_getLast? found)
    obtain ⟨first, final, lower, upper, stands⟩ := h.exists_stands among
    cases statement with
    | returning => cases binds
    | letBinding keyword bound value =>
      obtain rfl := Option.some.inj binds
      obtain ⟨k, behind, inside, same⟩ := stands.exists_name
      intro t mem
      obtain rfl : t = bound.token := by simpa [Outcome.tokens, Expression.tokens] using mem
      exact ⟨k, by omega, by omega, same⟩

end

/-- An attempt from a place comes to a place behind, and its statement, if any, stands between
the two. -/
def Poised.Stands {bound : Nat} (attempt : Poised Attempt bound) (tokens : List Token)
    (last : Token) (i : Nat) : Prop :=
  ∃ j, i ≤ j ∧ attempt.window.IsAt tokens last j ∧ ∀ s ∈ attempt.value.statement,
    ∃ final, final ≤ j ∧ s.Stands (endless (tokens ++ [last])) i final

end Window

open Window

/-! ## Rules that keep the order -/

/-- From any place of any stream, a rule comes to a place behind with a value between the two,
given that programs in the middle of the value are in order. -/
def Rule.KeepsOrder (rule : Rule) : Prop :=
  ∀ {tokens : List Token} {last : Token} {bound : Nat}
    {inner : (w : Window) → w.remaining < bound → Within Program bound},
    (∀ q below i, q.IsAt tokens last i →
      (inner q below).Comes tokens last i (Orders tokens last i)) →
    ∀ {w : Window} (h : w.remaining < bound) {i : Nat}, w.IsAt tokens last i →
      ((rule w).run inner w h).Comes tokens last i (Picks tokens last i)

namespace Rule

theorem skip_keepsOrder : Rule.skip.KeepsOrder := by
  intro tokens last bound inner _ w h i stands
  obtain ⟨j, le, swept, _⟩ := stands.sweep
  exact ⟨j, le, swept, picks_none⟩

theorem single_keepsOrder : Rule.single.KeepsOrder := by
  intro tokens last bound inner _ w h i stands
  unfold Rule.single
  split
  · exact ⟨i, Nat.le_refl i, stands, picks_currentName? stands (Nat.le_refl i)⟩
  · obtain ⟨j, le, moved⟩ := stands.expect .semicolon
    refine ⟨j, le, moved, ?_⟩
    simp only [Script.run]
    split
    · exact picks_currentName? stands le
    · exact picks_abandoned

theorem last_keepsOrder : Rule.last.KeepsOrder := by
  intro tokens last bound inner _ w h i stands
  obtain ⟨j, le, swept, passed⟩ := stands.sweep
  refine ⟨j, le, swept, ?_⟩
  simp only [Rule.last, Script.run]
  cases found : (w.sweep.1.toList.filter (·.kind == .ident)).getLast? with
  | none => exact picks_none
  | some name =>
    have mem := (List.mem_filter.mp (List.mem_of_getLast? found)).1
    obtain ⟨k, lower, upper, same⟩ := passed name (Array.mem_toList_iff.mp mem)
    exact picks_name lower upper same

theorem parenthesized_keepsOrder : Rule.parenthesized.KeepsOrder := by
  intro tokens last bound inner programs w h i stands
  unfold Rule.parenthesized
  split
  · obtain ⟨j, le, opened⟩ := stands.expect .ident
    cases named : (w.expect .ident).1 with
    | false =>
      refine ⟨j, le, ?_, ?_⟩ <;> simp only [Script.run, named]
      · exact opened
      · exact picks_abandoned
    | true =>
      obtain ⟨k, further, closed⟩ := opened.expect .rparen
      refine ⟨k, by omega, ?_, ?_⟩
      · simpa [Script.run, named] using closed
      · simp only [Script.run, named, if_true]
        split
        · exact picks_name le further opened.current_eq
        · exact picks_abandoned
  · exact skip_keepsOrder programs h stands

theorem nested_keepsOrder : Rule.nested.KeepsOrder := by
  intro tokens last bound inner programs w h i stands
  unfold Rule.nested
  split
  · obtain ⟨j, le, behind, ordered⟩ :=
      programs w.next (remaining_next_lt_bound h) (i + 1) stands.next
    refine ⟨j, by omega, behind, ?_⟩
    exact picks_lastName? (ordered.of_le (Nat.le_succ i))
  · exact skip_keepsOrder programs h stands

end Rule

theorem StandardRule.keepsOrder (rule : StandardRule) : rule.rule.KeepsOrder := by
  cases rule with
  | skip => exact Rule.skip_keepsOrder
  | single => exact Rule.single_keepsOrder
  | last => exact Rule.last_keepsOrder
  | parenthesized => exact Rule.parenthesized_keepsOrder
  | nested => exact Rule.nested_keepsOrder
  | nothing =>
    intro tokens last bound inner _ w h i stands
    exact ⟨i, Nat.le_refl i, stands, picks_none⟩
  | refuse =>
    intro tokens last bound inner _ w h i stands
    exact ⟨i, Nat.le_refl i, stands, picks_abandoned⟩
  | any =>
    intro tokens last bound inner _ w h i stands
    exact ⟨i, Nat.le_refl i, stands, picks_name (Nat.le_refl i) (Nat.le_refl i) stands.current_eq⟩
  | name =>
    intro tokens last bound inner programs w h i stands
    have named := picks_currentName? stands (Nat.le_refl i)
    simp only [StandardRule.rule, Rule.name]
    split
    · rename_i expression same
      rw [same] at named
      exact ⟨i, Nat.le_refl i, stands, named⟩
    · exact Rule.skip_keepsOrder programs h stands

namespace Window

/-! ## Statements -/

section

variable {rule : Rule} (keeps : rule.KeepsOrder) {tokens : List Token} {last : Token} {bound : Nat}
  {inner : (w : Window) → w.remaining < bound → Within Program bound}
  (programs : ∀ q below i, q.IsAt tokens last i →
    (inner q below).Comes tokens last i (Orders tokens last i))

include keeps programs

theorem comes_expression {w : Window} (h : w.remaining < bound) {i : Nat}
    (stands : w.IsAt tokens last i) :
    (expression rule inner w h).Comes tokens last i (Picks tokens last i) := by
  obtain ⟨j, le, behind, picks⟩ := keeps programs h stands
  unfold expression
  dsimp only
  split
  · exact ⟨j, le, behind, picks⟩
  · split
    · refine ⟨j + 1, by omega, behind.next, fun t mem => ?_⟩
      obtain ⟨k, lower, upper, same⟩ := picks t mem
      exact ⟨k, lower, by omega, same⟩
    · exact ⟨j, le, behind, picks⟩

theorem stands_complete {w : Window} (h : w.remaining < bound) {first i : Nat}
    (stands : w.IsAt tokens last i) (le : first ≤ i) {build : Option Expression → Statement}
    (builds : ∀ value j, i ≤ j → Picks tokens last i (.value value) j →
      ∃ final, final ≤ j ∧ (build value).Stands (endless (tokens ++ [last])) first final) :
    (complete rule inner w h build).Stands tokens last first := by
  obtain ⟨j, further, behind, picks⟩ := comes_expression keeps programs h stands
  refine ⟨j, by omega, behind, fun s mem => ?_⟩
  cases outcome : (expression rule inner w h).value with
  | abandoned =>
    simp only [complete, outcome] at mem
    cases mem
  | value value =>
    simp only [complete, outcome] at mem
    obtain rfl := Option.some.inj mem
    rw [outcome] at picks
    exact builds value j further picks

end

/-- An attempt that gives no statement only has to come to some place. -/
theorem Poised.stands_of_none {bound : Nat} {attempt : Poised Attempt bound} {tokens : List Token}
    {last : Token} {i j : Nat} (none : attempt.value.statement = none) (le : i ≤ j)
    (behind : attempt.window.IsAt tokens last j) : attempt.Stands tokens last i := by
  refine ⟨j, le, behind, ?_⟩
  rw [none]
  exact fun s mem => by cases mem

section

variable {rule : Rule} (keeps : rule.KeepsOrder) {w : Window} (more : w.current.kind ≠ .eof)
  {inner : (q : Window) → q.remaining < w.remaining → Within Program w.remaining}
  {tokens : List Token} {last : Token} {i : Nat}
  (programs : ∀ q below i, q.IsAt tokens last i →
    (inner q below).Comes tokens last i (Orders tokens last i))
  (stands : w.IsAt tokens last i)

include keeps programs stands

theorem stands_letBinding (word : w.current.kind = .letWord) :
    (w.letBinding rule more inner).Stands tokens last i := by
  have keyword := stands.current_eq
  have name := stands.peek_eq
  have sign : w.next.peek = endless (tokens ++ [last]) (i + 2) := stands.next.peek_eq
  unfold letBinding
  by_cases named : w.peek.kind = .ident
  · rw [dif_pos named]
    by_cases bound : w.next.peek.kind = .assign
    · rw [dif_pos bound]
      rw [keyword] at word
      rw [name] at named
      rw [sign] at bound
      refine stands_complete keeps programs _ stands.next.next.next (Nat.le_add_right i 3) ?_
      intro value j further picks
      rw [keyword, name]
      cases value with
      | none => exact ⟨i + 1, by omega, .binding word named bound⟩
      | some value =>
        obtain ⟨k, lower, upper, same⟩ := picks value.token (by cases value; exact List.mem_singleton_self _)
        exact ⟨k, upper, .bindingValue word named bound lower same⟩
    · rw [dif_neg bound]
      obtain ⟨j, le, behind⟩ := stands.next.expect .assign
      exact Poised.stands_of_none rfl (by omega) behind
  · rw [dif_neg named]
    obtain ⟨j, le, behind⟩ := stands.expect .ident
    exact Poised.stands_of_none rfl le behind

theorem stands_statement : (w.statement rule more inner).Stands tokens last i := by
  unfold statement
  split
  · rename_i word
    exact stands_letBinding keeps more programs stands word
  · rename_i word
    rw [stands.current_eq] at word ⊢
    refine stands_complete keeps programs _ stands.next (Nat.le_succ i) ?_
    intro value j further picks
    cases value with
    | none => exact ⟨i, by omega, .returning word⟩
    | some value =>
      obtain ⟨k, lower, upper, same⟩ := picks value.token (by cases value; exact List.mem_singleton_self _)
      exact ⟨k, upper, .returningValue word lower same⟩
  · exact Poised.stands_of_none rfl (Nat.le_refl i) stands

end

/-! ## Programs -/

/-- The turn behind an attempt begins at a later token. -/
theorem Attempt.one_le_stepsOf_leaveMoves (attempt : Attempt) (w : Window) :
    1 ≤ stepsOf (attempt.leaveMoves w) := by
  cases attempt with
  | parsed | nothing => exact Nat.le_refl 1
  | failed =>
    rw [leaveMoves, stepsOf_append]
    exact Nat.le_add_left 1 _

/-- Between two places of a stream, the loop finds statements in order. -/
theorem orders_parseFrom {rule : Rule} (keeps : rule.KeepsOrder) {tokens : List Token} {last : Token}
    {bound : Nat} (statements : Array Statement) {w : Window} (h : w.remaining < bound) {i : Nat}
    (stands : w.IsAt tokens last i) :
    ∃ found j, (parseFrom rule statements w h).value.statements.toList =
        statements.toList ++ found ∧
      i ≤ j ∧ (parseFrom rule statements w h).window.IsAt tokens last j ∧
      InOrder (endless (tokens ++ [last])) i found j := by
  refine parseFrom_induction rule (motive := fun statements w program w' =>
    ∀ {i : Nat}, w.IsAt tokens last i → ∃ found j,
      program.statements.toList = statements.toList ++ found ∧ i ≤ j ∧ w'.IsAt tokens last j ∧
      InOrder (endless (tokens ++ [last])) i found j) ?_ ?_ statements h stands
  · intro statements w eof i stands
    exact ⟨[], i, (List.append_nil _).symm, Nat.le_refl i, stands.replay [.log _],
      .nil (Nat.le_refl i)⟩
  · intro statements w more program w' inner read programs rest i stands
    have ordered : ∀ q below k, q.IsAt tokens last k →
        (inner q below).Comes tokens last k (Orders tokens last k) := by
      intro q below k there
      obtain ⟨found, j, all, le, behind, inOrder⟩ := programs q below there.cleared
      refine ⟨j, le, behind, ?_⟩
      rw [Orders, all]
      exact inOrder
    obtain ⟨j, le, behind, stood⟩ : read.Stands tokens last i :=
      stands_statement keeps more ordered stands
    have later := behind.replay (read.value.leaveMoves read.window)
    rw [Attempt.replay_leaveMoves] at later
    have further := read.value.one_le_stepsOf_leaveMoves read.window
    obtain ⟨found, k, all, le', finish, inOrder⟩ := rest later
    refine ⟨read.value.statement.toList ++ found, k, by simp [all], by omega, finish, ?_⟩
    cases given : read.value.statement with
    | none => exact inOrder.of_le (by omega)
    | some s =>
      obtain ⟨final, upper, stands⟩ := stood s given
      exact .cons (Nat.le_refl i) stands (inOrder.of_le (by omega))

end Window

/-- With a rule that keeps the order, the statements of a text stand in its stream one behind
the other. -/
theorem inOrder_readWith {rule : Rule} (keeps : rule.KeepsOrder) (source : String) (file : FileId)
    (recovery : Recovery) :
    ∃ j, InOrder (endless (tokenize source file).1.toList) 0
      (readWith rule source file recovery).1.statements.toList j := by
  obtain ⟨tokens, last, all, _, _⟩ := (Lexer.ofText source file).exists_stream_eq
  have whole : (tokenize source file).1.toList = tokens ++ [last] := all
  have start : (ofLexer recovery (.ofText source file)).IsAt tokens last 0 :=
    ⟨[], standsAt_ofLexer (Lexer.hasRead_ofText all) recovery⟩
  obtain ⟨found, j, same, _, _, ordered⟩ :=
    orders_parseFrom keeps #[] (Nat.lt_succ_self _) start.cleared
  rw [whole]
  exact ⟨j, same ▸ ordered⟩

end Monkey
