import Mathlib.Data.List.Find
import Monkey.Proofs.Lexer.Tiling
import Monkey.Proofs.Parser.Follows
import Monkey.Proofs.Parser.Moves

/-! # Programs inside of values

With the nested rule a brace in front of a value begins a program that takes all that is left.
Main statement: what the parser gives with that rule is computed by a recursion that knows only
what it gives with skipping, and that goes on behind the first brace that a value opens with. -/

namespace Monkey

/-! ## Values that open with a brace -/

namespace Statement

/-- The tokens from the value of a statement on: three behind the first one of a binding, one
behind a return. -/
def valueTokens (s : Statement) (tokens : List Token) : List Token :=
  let own := tokens.dropWhile (· ≠ s.keyword)
  match s with
  | letBinding _ _ _ => own.drop 3
  | returning _ _ => own.drop 1

/-- The value of the statement opens with a brace. -/
def Enters (s : Statement) (tokens : List Token) : Prop :=
  (s.valueTokens tokens).head?.map Token.kind = some .lbrace

instance (s : Statement) (tokens : List Token) : Decidable (s.Enters tokens) :=
  inferInstanceAs (Decidable (_ = _))

def withValue (value : Option Expression) : Statement → Statement
  | letBinding keyword name _ => letBinding keyword name value
  | returning keyword _ => returning keyword value

theorem valueTokens_suffix (s : Statement) (tokens : List Token) :
    s.valueTokens tokens <:+ tokens := by
  have own := List.dropWhile_suffix (l := tokens) (· ≠ s.keyword)
  cases s with
  | letBinding => exact (List.drop_suffix 3 _).trans own
  | returning => exact (List.drop_suffix 1 _).trans own

theorem Enters.exists_brace {s : Statement} {tokens : List Token} (h : s.Enters tokens) :
    ∃ brace behind, s.valueTokens tokens = brace :: behind ∧ brace.kind = .lbrace := by
  unfold Enters at h
  cases value : s.valueTokens tokens with
  | nil => simp [value] at h
  | cons brace behind => exact ⟨brace, behind, rfl, by simpa [value] using h⟩

theorem Enters.length_lt {s : Statement} {tokens : List Token} (h : s.Enters tokens) :
    (s.valueTokens tokens).tail.length < tokens.length := by
  obtain ⟨brace, behind, value, _⟩ := h.exists_brace
  have le := (s.valueTokens_suffix tokens).length_le
  rw [value] at le ⊢
  exact le

/-- Tokens in front of the keyword make no difference. -/
theorem valueTokens_append {s : Statement} {front tokens : List Token} (h : s.keyword ∉ front) :
    s.valueTokens (front ++ tokens) = s.valueTokens tokens := by
  have other : ∀ t ∈ front, decide (t ≠ s.keyword) = true := by
    intro t mem
    exact decide_eq_true fun same => h (same ▸ mem)
  unfold valueTokens
  rw [List.dropWhile_append_of_pos other]

theorem enters_append {s : Statement} {front tokens : List Token} (h : s.keyword ∉ front) :
    s.Enters (front ++ tokens) ↔ s.Enters tokens := by
  unfold Enters
  rw [valueTokens_append h]

theorem takeWhile_enters_append {statements : List Statement} {front tokens : List Token}
    (h : ∀ s ∈ statements, s.keyword ∉ front) :
    statements.takeWhile (¬ ·.Enters (front ++ tokens)) =
      statements.takeWhile (¬ ·.Enters tokens) := by
  induction statements with
  | nil => rfl
  | cons s statements ih =>
    have same : s.Enters (front ++ tokens) ↔ s.Enters tokens :=
      enters_append (h s List.mem_cons_self)
    simp only [List.takeWhile_cons, same, ih fun s mem => h s (List.mem_cons_of_mem _ mem)]

end Statement

/-! ## The recursion -/

/-- The first statement that is found with skipping and whose value opens with a brace. -/
def entering? (recovery : Recovery) (last : Token) (tokens : List Token) : Option Statement :=
  (Reader.skip.program recovery last tokens).1.find? (·.Enters tokens)

theorem enters_of_entering? {recovery : Recovery} {last : Token} {tokens : List Token}
    {s : Statement} (h : entering? recovery last tokens = some s) : s.Enters tokens := by
  unfold entering? at h
  simpa using List.find?_some h

/-- What the nested rule makes of a list of tokens. Up to the first value that opens with a
brace it skips. What stands behind that brace is read by itself, its last name becomes the
value, its mismatches are the only ones that stay, and nothing is read behind. -/
def nestedProgram (recovery : Recovery) (last : Token) (tokens : List Token) :
    List Statement × List Diagnostic :=
  let skipped := Reader.skip.program recovery last tokens
  match _ : entering? recovery last tokens with
  | none => skipped
  | some s =>
    let inner := nestedProgram recovery last (s.valueTokens tokens).tail
    let value := (Rule.lastName? ⟨inner.1.toArray⟩).map .identifier
    (skipped.1.takeWhile (¬ ·.Enters tokens) ++ [s.withValue value], inner.2)
termination_by tokens.length
decreasing_by
  rename_i found
  exact (enters_of_entering? found).length_lt

section

variable {recovery : Recovery} {last : Token} {tokens : List Token}

theorem nestedProgram_of_none (h : entering? recovery last tokens = none) :
    nestedProgram recovery last tokens = Reader.skip.program recovery last tokens := by
  rw [nestedProgram]
  split
  · rfl
  · rename_i found
    cases h.symm.trans found

theorem nestedProgram_of_some {s : Statement} (h : entering? recovery last tokens = some s) :
    nestedProgram recovery last tokens =
      let inner := nestedProgram recovery last (s.valueTokens tokens).tail
      let value := (Rule.lastName? ⟨inner.1.toArray⟩).map .identifier
      ((Reader.skip.program recovery last tokens).1.takeWhile (¬ ·.Enters tokens) ++
        [s.withValue value], inner.2) := by
  rw [nestedProgram]
  split
  · rename_i free
    cases free.symm.trans h
  · rename_i found
    obtain rfl := Option.some.inj (found.symm.trans h)
    rfl

theorem entering?_nil : entering? recovery last [] = none := by
  rw [entering?, Reader.program, List.find?_nil]

theorem nestedProgram_nil : nestedProgram recovery last [] = ([], []) := by
  rw [nestedProgram_of_none entering?_nil, Reader.program]

/-- The mismatches are those of a program read with skipping that stands behind the last brace
that is entered, or at the beginning when none is. -/
theorem exists_innermost (recovery : Recovery) (last : Token) (tokens : List Token) :
    ∃ behind, (behind = tokens ∨ ∃ brace, brace.kind = .lbrace ∧ brace :: behind <:+ tokens) ∧
      entering? recovery last behind = none ∧
      (nestedProgram recovery last tokens).2 = (Reader.skip.program recovery last behind).2 := by
  induction tokens using nestedProgram.induct recovery last with
  | case1 tokens none => exact ⟨tokens, .inl rfl, none, by rw [nestedProgram_of_none none]⟩
  | case2 tokens s found ih =>
    obtain ⟨behind, place, free, same⟩ := ih
    refine ⟨behind, .inr ?_, free, by rw [nestedProgram_of_some found]; exact same⟩
    obtain ⟨brace, inside, value, isBrace⟩ := (enters_of_entering? found).exists_brace
    have suffix : brace :: inside <:+ tokens := value ▸ s.valueTokens_suffix tokens
    rw [value, List.tail_cons] at place
    obtain rfl | ⟨deeper, isDeeper, inner⟩ := place
    · exact ⟨brace, isBrace, suffix⟩
    · exact ⟨deeper, isDeeper, (inner.trans (List.suffix_cons _ _)).trans suffix⟩

end

/-! ## Turns of the recursion -/

/-- A keyword opens a statement whose value begins with the given tokens. -/
inductive Opens (t : Token) :
    List Token → (Option Expression → Statement) → List Token → Prop
  | binding {name sign : Token} {body : List Token} (word : t.kind = .letWord)
      (named : name.kind = .ident) (bound : sign.kind = .assign) :
      Opens t (name :: sign :: body) (.letBinding t (.ofToken name)) body
  | returning {body : List Token} (word : t.kind = .returnWord) :
      Opens t body (.returning t) body

namespace Opens

variable {t : Token} {rest body : List Token} {build : Option Expression → Statement}

theorem valueTokens_eq (h : Opens t rest build body) (value : Option Expression) :
    (build value).valueTokens (t :: rest) = body := by
  cases h with
  | binding => simp [Statement.valueTokens, Statement.keyword]
  | returning => simp [Statement.valueTokens, Statement.keyword]

theorem withValue_eq (h : Opens t rest build body) (value other : Option Expression) :
    (build value).withValue other = build other := by
  cases h <;> rfl

theorem turn_eq (h : Opens t rest build body) (reader : Reader) (recovery : Recovery)
    (last : Token) :
    reader.turn recovery last t rest = reader.complete recovery build body last := by
  cases h with
  | binding word named bound => exact reader.turn_of_binding recovery word named bound
  | returning word => exact reader.turn_of_return recovery word

theorem statement_skip (h : Opens t rest build body) (recovery : Recovery) (last : Token) :
    (Reader.skip.turn recovery last t rest).statement = some (build none) := by
  rw [h.turn_eq, Reader.skip.complete_of_value recovery rfl]

theorem tail_suffix (h : Opens t rest build body) : body.tail <:+ rest := by
  refine (List.tail_suffix body).trans ?_
  cases h with
  | @binding name sign => exact (List.suffix_cons sign body).trans (List.suffix_cons name _)
  | returning => exact List.suffix_rfl

theorem keyword_eq (h : Opens t rest build body) (value : Option Expression) :
    (build value).keyword = t := by
  cases h <;> rfl

end Opens

section

variable {reader : Reader} {recovery : Recovery} {last t : Token} {rest tokens : List Token}
  {s : Statement} (eof : last.kind = .eof)

include eof

/-- A statement comes out of a turn only when a keyword opens it. -/
theorem exists_opens (h : (reader.turn recovery last t rest).statement = some s) :
    ∃ build body value, Opens t rest build body ∧ s = build value := by
  have completed : ∀ {build body}, Opens t rest build body →
      ∃ build body value, Opens t rest build body ∧ s = build value := by
    intro build body opens
    rw [opens.turn_eq, Reader.complete] at h
    cases outcome : (reader.value body last).outcome with
    | abandoned => simp [outcome] at h
    | value value => exact ⟨build, body, value, opens, by simpa [outcome] using h.symm⟩
  by_cases isReturn : t.kind = .returnWord
  · exact completed (.returning isReturn)
  by_cases isLet : t.kind = .letWord
  · by_cases named : (rest.headD last).kind = .ident
    · obtain ⟨name, signed, rfl, isName⟩ := Reader.exists_cons_of_headD named (by simp [eof])
      by_cases bound : (signed.headD last).kind = .assign
      · obtain ⟨sign, body, rfl, isSign⟩ := Reader.exists_cons_of_headD bound (by simp [eof])
        exact completed (.binding isLet isName isSign)
      · rw [reader.turn_of_missing_sign recovery isLet named bound] at h
        cases h
    · rw [reader.turn_of_missing_name recovery isLet named] at h
      cases h
  · rw [reader.turn_of_plain recovery isLet isReturn] at h
    cases h

/-- The statements of a program begin with tokens of it. -/
theorem keyword_mem_of_mem_program (mem : s ∈ (reader.program recovery last tokens).1) :
    s.keyword ∈ tokens := by
  induction tokens using reader.turn_induction recovery last with
  | finish => simp [Reader.program] at mem
  | turn t rest ih =>
    rw [Reader.program] at mem
    rcases List.mem_append.mp mem with own | behind
    · obtain ⟨build, body, value, opens, rfl⟩ := exists_opens eof (Option.mem_toList.mp own)
      rw [opens.keyword_eq]
      exact List.mem_cons_self
    · have suffix := reader.left_turn_suffix recovery last t rest
      exact List.mem_cons_of_mem _ (suffix.mem (ih behind))

end

section

variable {recovery : Recovery} {last t : Token} {rest : List Token} {s : Statement}

/-- A turn whose value opens with a brace is the last one. -/
theorem nestedProgram_of_enters (own : (Reader.skip.turn recovery last t rest).statement = some s)
    (enters : s.Enters (t :: rest)) :
    entering? recovery last (t :: rest) = some s ∧
      nestedProgram recovery last (t :: rest) =
        let inner := nestedProgram recovery last (s.valueTokens (t :: rest)).tail
        let value := (Rule.lastName? ⟨inner.1.toArray⟩).map .identifier
        ([s.withValue value], inner.2) := by
  have first : ∃ more, (Reader.skip.program recovery last (t :: rest)).1 = s :: more := by
    rw [Reader.program, own]
    exact ⟨_, rfl⟩
  obtain ⟨more, statements⟩ := first
  have found : entering? recovery last (t :: rest) = some s := by
    rw [entering?, statements, List.find?_cons_of_pos (by simpa using enters)]
  refine ⟨found, ?_⟩
  rw [nestedProgram_of_some found, statements, List.takeWhile_cons_of_neg (by simpa using enters)]
  rfl

/-- Any other turn is the one of skipping. Its mismatches stay if no later value opens with a
brace. -/
theorem nestedProgram_of_stays (eof : last.kind = .eof) (distinct : (t :: rest).Nodup)
    (stays : ∀ s ∈ (Reader.skip.turn recovery last t rest).statement, ¬ s.Enters (t :: rest)) :
    let turn := Reader.skip.turn recovery last t rest
    let more := nestedProgram recovery last turn.left
    entering? recovery last (t :: rest) = entering? recovery last turn.left ∧
      nestedProgram recovery last (t :: rest) = (turn.statement.toList ++ more.1,
        if (entering? recovery last turn.left).isSome then more.2
        else turn.mismatches ++ more.2) := by
  intro turn more
  obtain ⟨front, whole⟩ : turn.left <:+ t :: rest :=
    (Reader.skip.left_turn_suffix recovery last t rest).trans (List.suffix_cons t rest)
  -- A later statement has its keyword behind the turn, so its value stands there as well.
  have apart : ∀ s ∈ (Reader.skip.program recovery last turn.left).1, s.keyword ∉ front := by
    intro s mem inFront
    rw [← whole] at distinct
    have inLeft := keyword_mem_of_mem_program eof mem
    exact (List.nodup_append.mp distinct).2.2 _ inFront _ inLeft rfl
  have own : ∀ s ∈ turn.statement.toList, ¬ s.Enters (t :: rest) :=
    fun s mem => stays s (Option.mem_toList.mp mem)
  have found : entering? recovery last (t :: rest) = entering? recovery last turn.left := by
    have none : turn.statement.toList.find? (·.Enters (t :: rest)) = none := by
      simpa using own
    rw [entering?, Reader.program, List.find?_append, none, Option.none_or]
    refine List.find?_congr fun s mem => ?_
    rw [← whole]
    exact decide_eq_decide.mpr (Statement.enters_append (apart s mem))
  refine ⟨found, ?_⟩
  cases later : entering? recovery last turn.left with
  | none =>
    rw [nestedProgram_of_none (found.trans later), Reader.program]
    simp [more, nestedProgram_of_none later, turn]
  | some s =>
    have mem := List.mem_of_find?_eq_some later
    have value : s.valueTokens (t :: rest) = s.valueTokens turn.left := by
      rw [← whole]
      exact Statement.valueTokens_append (apart s mem)
    have before : (Reader.skip.program recovery last (t :: rest)).1.takeWhile
        (¬ ·.Enters (t :: rest)) = turn.statement.toList ++
          (Reader.skip.program recovery last turn.left).1.takeWhile (¬ ·.Enters turn.left) := by
      rw [Reader.program, List.takeWhile_append_of_pos (by simpa using own), ← whole,
        Statement.takeWhile_enters_append apart]
    rw [nestedProgram_of_some (found.trans later), value, before]
    simp [more, nestedProgram_of_some later]

end

/-! ## Turns of the parser -/

namespace Window

section

variable {w : Window} (more : w.current.kind ≠ .eof)
  (inner : (q : Window) → q.remaining < w.remaining → Within Program w.remaining)
  {t : Token} {rest : List Token} {last : Token} (ahead : w.Ahead (t :: rest) last)

include ahead

/-- Behind an opening keyword the parser completes the statement with a value. -/
theorem exists_complete {build : Option Expression → Statement} {body : List Token}
    (opens : Opens t rest build body) :
    ∃ (q : Window) (below : q.remaining < w.remaining), w.Reaches q body last [] ∧
      ∀ rule, w.statement rule more inner = complete rule inner q below build := by
  have current : w.current = t := ahead.current_eq
  cases opens with
  | @binding name sign body word named bound =>
    have peek : w.peek = name := ahead.peek_eq
    have peek' : w.next.peek = sign := ahead.next.ahead.peek_eq
    refine ⟨w.next.next.next, remaining_body_lt more, ahead.next.next.next, fun rule => ?_⟩
    have isLet : w.current.kind = .letWord := by rw [current, word]
    simp only [statement, isLet]
    rw [letBinding, dif_pos (by rw [peek, named]), dif_pos (by rw [peek', bound]), current, peek]
  | returning word =>
    refine ⟨w.next, remaining_next_lt more, ahead.next, fun rule => ?_⟩
    have isReturn : w.current.kind = .returnWord := by rw [current, word]
    simp only [statement, isReturn]
    rw [current]

/-- Where no keyword opens a statement, the rule is not asked. -/
theorem statement_of_not_opens (closed : ∀ build body, ¬ Opens t rest build body)
    (rule other : Rule) : w.statement rule more inner = w.statement other more inner := by
  have current : w.current = t := ahead.current_eq
  have eof := ahead.last_kind
  cases word : w.current.kind with
  | letWord =>
    simp only [statement, word]
    unfold letBinding
    by_cases named : w.peek.kind = .ident
    · by_cases bound : w.next.peek.kind = .assign
      · have name : w.peek = rest.headD last := ahead.peek_eq
        obtain ⟨name, signed, rfl, isName⟩ :=
          Reader.exists_cons_of_headD (name ▸ named) (by simp [eof])
        have sign : w.next.peek = signed.headD last := ahead.next.ahead.peek_eq
        obtain ⟨sign, body, rfl, isSign⟩ :=
          Reader.exists_cons_of_headD (sign ▸ bound) (by simp [eof])
        exact absurd (.binding (by rw [← current, word]) isName isSign) (closed _ _)
      · rw [dif_pos named, dif_pos named, dif_neg bound, dif_neg bound]
    · rw [dif_neg named, dif_neg named]
  | returnWord => exact absurd (.returning (by rw [← current, word])) (closed _ _)
  | _ => simp only [statement, word]

/-- Where no value opens with a brace, the nested rule takes the turn of skipping. -/
theorem statement_takes_skip
    (stays : ∀ s ∈ (Reader.skip.turn w.recovery last t rest).statement, ¬ s.Enters (t :: rest)) :
    w.Takes (w.statement .nested more inner) last (Reader.skip.turn w.recovery last t rest) := by
  have skips := statement_takes Rule.skip_follows more inner ahead
  suffices same : w.statement .nested more inner = w.statement .skip more inner by rwa [same]
  by_cases opens : ∃ build body, Opens t rest build body
  · obtain ⟨build, body, opens⟩ := opens
    obtain ⟨q, below, behind, read⟩ := exists_complete more inner ahead opens
    have noBrace : q.current.kind ≠ .lbrace := by
      intro isBrace
      rw [behind.ahead.current_eq] at isBrace
      obtain ⟨brace, inside, rfl, kind⟩ :=
        Reader.exists_cons_of_headD isBrace (by simp [ahead.last_kind])
      refine stays (build none) (opens.statement_skip w.recovery last) ?_
      rw [Statement.Enters, opens.valueTokens_eq, List.head?_cons, Option.map_some, kind]
    have plain : Rule.nested q = Rule.skip q := if_neg noBrace
    rw [read, read]
    simp only [complete, expression, plain]
  · simp only [not_exists] at opens
    exact statement_of_not_opens more inner ahead opens .nested .skip

/-- Where a value opens with a brace, a program is read behind it. When that comes to the end,
its last name is the value. -/
theorem statement_enters {build : Option Expression → Statement} {brace : Token}
    {inside : List Token} (opens : Opens t rest build (brace :: inside))
    (isBrace : brace.kind = .lbrace) :
    ∃ (q : Window) (below : q.remaining < w.remaining), w.Reaches q inside last [] ∧
      ((inner q below).window.peek.kind ≠ .semicolon →
        (w.statement .nested more inner).value =
            .parsed (build ((Rule.lastName? (inner q below).value).map .identifier)) ∧
          (w.statement .nested more inner).window = (inner q below).window) := by
  obtain ⟨q, below, behind, read⟩ := exists_complete more inner ahead opens
  refine ⟨q.next, remaining_next_lt_bound below, behind.next, fun noSemicolon => ?_⟩
  have enters : Rule.nested q = .next fun _ => .parseProgram fun program _ =>
      .done (.value ((Rule.lastName? program).map .identifier)) :=
    if_pos (by rw [behind.ahead.current_eq]; exact isBrace)
  rw [read]
  simp only [complete, expression, enters, Script.run, if_neg noSemicolon]
  exact ⟨trivial, trivial⟩

end

/-! ## Runs of the parser -/

/-- A run with the nested rule comes to the end, to the statements of the recursion and to its
mismatches. Those from before the run stay only if no value opens with a brace. -/
structure ReadsNested (statements : Array Statement) (w : Window) (tokens : List Token)
    (last : Token) (program : Program) (w' : Window) : Prop where
  ahead : w'.Ahead [] last
  statements_eq : program.statements.toList =
    statements.toList ++ (nestedProgram w.recovery last tokens).1
  diagnostics_eq : w'.diagnostics.toList =
    if (entering? w.recovery last tokens).isSome then (nestedProgram w.recovery last tokens).2
    else w.diagnostics.toList ++ (nestedProgram w.recovery last tokens).2

theorem Ahead.cleared {w : Window} {tokens : List Token} {last : Token} (h : w.Ahead tokens last) :
    w.cleared.Ahead tokens last :=
  ⟨h.current_eq, h.peek_eq, h.stream_eq, h.kinds, h.last_kind⟩

/-- From a window whose mismatches are gone, all is as the recursion says. -/
theorem ReadsNested.of_cleared {w w' : Window} {tokens : List Token} {last : Token}
    {program : Program} (h : ReadsNested #[] w.cleared tokens last program w') :
    (program.statements.toList, w'.diagnostics.toList) = nestedProgram w.recovery last tokens := by
  obtain ⟨_, statements, diagnostics⟩ := h
  have same : w'.diagnostics.toList = (nestedProgram w.recovery last tokens).2 := by
    rw [diagnostics]
    split
    · rfl
    · rfl
  rw [statements, same]
  rfl

section

variable {w : Window} {t : Token} {rest : List Token} {last : Token}
  (statements : Array Statement)

/-- A turn of skipping, and what is read behind it. -/
theorem ReadsNested.of_stays (eof : last.kind = .eof) (distinct : (t :: rest).Nodup)
    {bound : Nat} {attempt : Poised Attempt bound}
    (stays : ∀ s ∈ (Reader.skip.turn w.recovery last t rest).statement, ¬ s.Enters (t :: rest))
    (takes : w.Takes attempt last (Reader.skip.turn w.recovery last t rest)) {program : Program}
    {w' : Window}
    (later : ReadsNested (statements ++ attempt.value.statement.toList.toArray)
      (attempt.value.leave attempt.window) (Reader.skip.turn w.recovery last t rest).left last
      program w') :
    ReadsNested statements w (t :: rest) last program w' := by
  obtain ⟨found, nested⟩ := nestedProgram_of_stays eof distinct stays
  obtain ⟨statement, reaches⟩ := takes
  obtain ⟨finish, others, diagnostics⟩ := later
  rw [reaches.recovery_eq] at others diagnostics
  refine ⟨finish, ?_, ?_⟩
  · rw [others, nested, statement]
    simp
  · rw [diagnostics, reaches.diagnostics_eq, found, nested]
    split <;> simp

/-- A program in a value, behind which nothing is left. -/
theorem ReadsNested.of_enters {build : Option Expression → Statement} {brace : Token}
    {inside : List Token} (opens : Opens t rest build (brace :: inside))
    (isBrace : brace.kind = .lbrace) {q inner : Window} (recovery : q.recovery = w.recovery)
    {value : Program} (read : ReadsNested #[] q.cleared inside last value inner) {bound : Nat}
    {attempt : Poised Attempt bound}
    (parsed : attempt.value = .parsed (build ((Rule.lastName? value).map .identifier)))
    (window : attempt.window = inner) {program : Program} {w' : Window}
    (later : ReadsNested (statements ++ attempt.value.statement.toList.toArray)
      (attempt.value.leave attempt.window) [] last program w') :
    ReadsNested statements w (t :: rest) last program w' := by
  have enters : (build none).Enters (t :: rest) := by
    rw [Statement.Enters, opens.valueTokens_eq, List.head?_cons, Option.map_some, isBrace]
  obtain ⟨found, nested⟩ :=
    nestedProgram_of_enters (opens.statement_skip w.recovery last) enters
  have same := read.of_cleared
  rw [recovery] at same
  have whole : (⟨(nestedProgram w.recovery last inside).1.toArray⟩ : Program) = value := by
    rw [← same]
  simp only [opens.valueTokens_eq, List.tail_cons, whole, opens.withValue_eq] at nested
  obtain ⟨finish, others, diagnostics⟩ := later
  rw [nestedProgram_nil, parsed] at others
  rw [nestedProgram_nil, entering?_nil, parsed, window] at diagnostics
  refine ⟨finish, ?_, ?_⟩
  · rw [others, nested]
    simp [Attempt.statement]
  · rw [diagnostics, found, nested, ← same]
    simp [Attempt.leave, Window.next, Window.log]

end

/-- The loop with the nested rule comes to what the recursion says. -/
theorem readsNested_parseFrom {last : Token} {bound : Nat} (statements : Array Statement)
    {w : Window} (h : w.remaining < bound) {tokens : List Token} (distinct : tokens.Nodup)
    (ahead : w.Ahead tokens last) :
    ReadsNested statements w tokens last (parseFrom .nested statements w h).value
      (parseFrom .nested statements w h).window := by
  refine parseFrom_induction .nested (motive := fun statements w program left =>
    ∀ tokens : List Token, tokens.Nodup → w.Ahead tokens last →
      ReadsNested statements w tokens last program left) ?_ ?_ statements h tokens distinct ahead
  · intro statements w eof tokens _ ahead
    obtain rfl := ahead.current_kind_eq_eof_iff.mp eof
    refine ⟨(ahead.refl.log _).ahead, ?_, ?_⟩
    · simp [nestedProgram_nil]
    · simp [nestedProgram_nil, entering?_nil, Window.log]
  · intro statements w more program left inner read programs later tokens distinct ahead
    obtain ⟨t, rest, rfl⟩ := List.exists_cons_of_ne_nil
      (mt ahead.current_kind_eq_eof_iff.mpr more)
    have apart : ∀ {left}, left <:+ rest → left.Nodup :=
      fun suffix => distinct.of_cons.sublist suffix.sublist
    by_cases enters : ∃ s, (Reader.skip.turn w.recovery last t rest).statement = some s ∧
        s.Enters (t :: rest)
    · -- The program in the value takes all tokens, so nothing is left for the next turn.
      obtain ⟨s, own, enters⟩ := enters
      obtain ⟨build, body, value, opens, rfl⟩ := exists_opens ahead.last_kind own
      obtain ⟨brace, inside, body, isBrace⟩ := enters.exists_brace
      rw [opens.valueTokens_eq] at body
      subst body
      obtain ⟨q, below, behind, run⟩ := statement_enters more inner ahead opens isBrace
      have nested := programs q below inside (apart opens.tail_suffix) behind.ahead.cleared
      have finished : (inner q below).window.peek.kind = .eof := by
        rw [nested.ahead.peek_eq]
        exact ahead.last_kind
      obtain ⟨parsed, window⟩ := run fun semicolon => by cases finished.symm.trans semicolon
      refine .of_enters statements opens isBrace behind.recovery_eq nested parsed window
        (later [] List.nodup_nil ?_)
      rw [parsed, window]
      exact (nested.ahead.refl.log _).next.ahead
    · have stays : ∀ s ∈ (Reader.skip.turn w.recovery last t rest).statement,
          ¬ s.Enters (t :: rest) := fun s own inside => enters ⟨s, own, inside⟩
      have takes := statement_takes_skip more inner ahead stays
      exact .of_stays statements ahead.last_kind distinct stays takes
        (later _ (apart (Reader.skip.left_turn_suffix w.recovery last t rest))
          takes.reaches.ahead)

end Window

/-! ## Whole texts -/

/-- From any token of a text on, the nested rule gives what the recursion computes, and that
knows only what skipping gives. The mismatches are those of the innermost program. -/
theorem parseProgram_nested (source : String) (file : FileId) (recovery : Recovery)
    (pulled : Nat) :
    ∃ tokens last, (tokenize source file).1.toList = tokens ++ [last] ∧ last.kind = .eof ∧
      let start := Window.ofLexer recovery ((Lexer.ofText source file).pulled pulled)
      let left := tokens.drop pulled
      let skipped := start.parseProgram .skip
      let read := start.parseProgram .nested
      (skipped.1.statements.toList, skipped.2.diagnostics.toList) =
        Reader.skip.program recovery last left ∧
      (read.1.statements.toList, read.2.diagnostics.toList) =
        nestedProgram recovery last left ∧
      ∃ behind, (behind = left ∨ ∃ brace, brace.kind = .lbrace ∧ brace :: behind <:+ left) ∧
        entering? recovery last behind = none ∧
        read.2.diagnostics.toList = (Reader.skip.program recovery last behind).2 := by
  obtain ⟨tokens, last, all, _, eof⟩ := (Lexer.ofText source file).exists_stream_eq
  have stream := ((Lexer.hasRead_ofText all).pulled pulled).stream_eq
  refine ⟨tokens, last, all, eof, ?_⟩
  intro start left skipped read
  have ahead : start.Ahead left last := Window.ahead_ofLexer stream recovery
  have distinct : left.Nodup := by
    have apart : (tokens ++ [last]).Nodup := all ▸ (scan_tokenize source file).nodup
    exact apart.sublist ((List.drop_sublist pulled tokens).trans (List.sublist_append_left _ _))
  obtain ⟨statements, diagnostics, _⟩ := Window.parseProgram_follows Rule.skip_follows stream
    recovery
  have nested : (read.1.statements.toList, read.2.diagnostics.toList) =
      nestedProgram recovery last left :=
    (Window.readsNested_parseFrom #[] (Nat.lt_succ_self _) distinct ahead.cleared).of_cleared
  obtain ⟨behind, place, free, same⟩ := exists_innermost recovery last left
  exact ⟨Prod.ext statements diagnostics, nested, behind, place, free,
    (congrArg Prod.snd nested).trans same⟩

/-- Two programs inside of one another, with a mismatch in front of each brace. -/
example :
    let source := "let $; let a = \x7b let b c; let d = \x7b let e = f"
    let read := readWith Rule.nested source 0 .skipToken
    read.1.text = "let a = d;" ∧ read.2.diagnostics.size = 0 := by
  decide +kernel

end Monkey
