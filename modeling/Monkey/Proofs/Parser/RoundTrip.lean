import Monkey.Proofs.Lexer.Layout
import Monkey.Proofs.Parser.Bare
import Monkey.Proofs.Parser.Segments
import Monkey.Proofs.Parser.WellFormed

/-! # Printing and reading

The text of a well-formed program is laid out so that its tokens stay apart. Main
statement: reading that text with names as values gives back all statements but the
bindings that have no value, and one mismatch for each of those. -/

namespace Monkey

/-! ## Texts with known lexemes -/

/-- The text has a layout of the given lexemes, all of which stay apart. -/
def Laid (text : List Char) (lexemes : List Lexeme) : Prop :=
  ∃ layout : Layout, layout.text = text ∧ layout.lexemes = lexemes ∧ layout.Separated

namespace Laid

variable {gap rest : List Char} {l : Lexeme} {lexemes : List Lexeme}

theorem finish : Laid [] [] := ⟨.finish [] isGap_nil, rfl, rfl, trivial⟩

theorem item (blank : IsGap gap) (lexeme : IsLexeme l) (stops : l.StopsAt rest)
    (laid : Laid rest lexemes) : Laid (gap ++ l.text ++ rest) (l :: lexemes) := by
  obtain ⟨layout, rfl, rfl, separated⟩ := laid
  exact ⟨.item gap l blank lexeme layout, rfl, rfl, (Layout.stopsAt_text l layout).mp stops,
    separated⟩

/-- A lexeme with a space behind it. -/
theorem spaced (blank : IsGap gap) (lexeme : IsLexeme l) (laid : Laid (' ' :: rest) lexemes) :
    Laid (gap ++ l.text ++ ' ' :: rest) (l :: lexemes) := by
  refine laid.item blank lexeme (l.stopsAt_of_isBlank ?_)
  intro c hc
  obtain rfl : ' ' = c := by simpa using hc
  rfl

/-- A word with a semicolon behind it. -/
theorem word (blank : IsGap gap) (lexeme : IsLexeme l) (isWord : l.kind.isWord = true)
    (laid : Laid (';' :: rest) lexemes) : Laid (gap ++ l.text ++ ';' :: rest) (l :: lexemes) := by
  refine laid.item blank lexeme ?_
  have letter : isLetter ';' = false := by decide
  simp [Lexeme.StopsAt, Lexeme.Continues, Kind.ne_of_isWord isWord, letter]

theorem semicolon (laid : Laid rest lexemes) :
    Laid (';' :: rest) (⟨.semicolon, [';']⟩ :: lexemes) := by
  have lexeme : IsLexeme ⟨.semicolon, [';']⟩ := @IsLexeme.mark .semicolon rfl
  have stops : Lexeme.StopsAt ⟨.semicolon, [';']⟩ rest := by
    simp [Lexeme.StopsAt, Lexeme.Continues, Kind.isWord, Kind.isKeyword]
  exact item isGap_nil lexeme stops laid

/-- The text is read as the lexemes. -/
theorem tokenize_eq {text : String} (laid : Laid text.toList lexemes) (file : FileId) :
    (tokenize text file).1.toList.map Token.lexeme = lexemes ++ [⟨.eof, []⟩] := by
  obtain ⟨layout, same, rfl, separated⟩ := laid
  have read := (lexemes_tokenize_iff layout file).mpr separated
  rwa [same, String.ofList_toList] at read

end Laid

/-! ## The lexemes of a program -/

/-- A lexeme is the word that a text consists of. -/
structure Lexeme.Spells (l : Lexeme) (text : String) : Prop where
  lexeme : IsLexeme l
  isWord : l.kind.isWord = true
  text_eq : l.text = text.toList

def Expression.lexeme : Expression → Lexeme
  | identifier name => name.token.lexeme

/-- The lexemes that a statement is printed with. -/
def Statement.lexemes : Statement → List Lexeme
  | letBinding keyword name (some value) =>
    [keyword.lexeme, name.token.lexeme, ⟨.assign, ['=']⟩, value.lexeme, ⟨.semicolon, [';']⟩]
  | letBinding keyword name none => [keyword.lexeme, name.token.lexeme, ⟨.semicolon, [';']⟩]
  | returning keyword (some value) => [keyword.lexeme, value.lexeme, ⟨.semicolon, [';']⟩]
  | returning keyword none => [keyword.lexeme, ⟨.semicolon, [';']⟩]

theorem Token.spells_of_isKeyword {t : Token} (hk : t.kind.isKeyword = true)
    (spelled : t.literal = t.kind.text) : t.lexeme.Spells t.literal := by
  refine ⟨?_, Kind.isWord_of_isKeyword hk, rfl⟩
  rw [lexeme, spelled]
  exact .keyword hk

theorem Identifier.WellFormed.spells {name : Identifier} (h : name.WellFormed) :
    name.token.lexeme.Spells name.text := by
  refine ⟨h.isLexeme, ?_, ?_⟩
  · show name.token.kind.isWord = true
    rw [h.kind_eq]
    rfl
  · show name.token.literal.toList = name.value.toList
    rw [h.value_eq]

theorem Expression.WellFormed.spells {e : Expression} (h : e.WellFormed) :
    e.lexeme.Spells e.text := by
  cases e with
  | identifier name => exact Identifier.WellFormed.spells h

/-- A well-formed statement is printed as its lexemes, whatever stands behind it. -/
theorem Statement.WellFormed.laid {s : Statement} (h : s.WellFormed) {gap rest : List Char}
    (blank : IsGap gap) {others : List Lexeme} (laid : Laid rest others) :
    Laid (gap ++ s.text.toList ++ rest) (s.lexemes ++ others) := by
  have space : IsGap [' '] := isGap_singleton rfl
  have sign : IsLexeme ⟨.assign, ['=']⟩ := @IsLexeme.mark .assign rfl
  have stop := laid.semicolon
  cases s with
  | letBinding keyword name value =>
    obtain ⟨⟨kind, literal⟩, named, values⟩ := h
    have opens := keyword.spells_of_isKeyword (by simp [kind, Kind.isKeyword])
      (by rw [kind, literal]; rfl)
    have names := named.spells
    cases value with
    | none =>
      have binding := (stop.word space names.lexeme names.isWord).spaced blank opens.lexeme
      rw [opens.text_eq, names.text_eq] at binding
      simpa [text, lexemes] using binding
    | some value =>
      have spells := (values value rfl).spells
      have bound := (stop.word space spells.lexeme spells.isWord).spaced space sign
      have binding := (bound.spaced space names.lexeme).spaced blank opens.lexeme
      rw [opens.text_eq, names.text_eq, spells.text_eq] at binding
      simpa [text, lexemes] using binding
  | returning keyword value =>
    obtain ⟨⟨kind, literal⟩, values⟩ := h
    have opens := keyword.spells_of_isKeyword (by simp [kind, Kind.isKeyword])
      (by rw [kind, literal]; rfl)
    cases value with
    | none =>
      have returning := stop.word blank opens.lexeme opens.isWord
      rw [opens.text_eq] at returning
      simpa [text, lexemes] using returning
    | some value =>
      have spells := (values value rfl).spells
      have returning := (stop.word space spells.lexeme spells.isWord).spaced blank opens.lexeme
      rw [opens.text_eq, spells.text_eq] at returning
      simpa [text, lexemes] using returning

/-- Statements, each on a line of its own, behind a line. -/
theorem laid_lines (statements : List Statement) (h : ∀ s ∈ statements, s.WellFormed) :
    Laid (statements.flatMap fun s => '\n' :: s.text.toList)
      (statements.flatMap Statement.lexemes) := by
  induction statements with
  | nil => exact .finish
  | cons s statements ih =>
    have line : IsGap ['\n'] := isGap_singleton rfl
    have others := ih fun t ht => h t (by simp [ht])
    simpa using (h s (by simp)).laid line others

theorem toList_intercalate_newline (first : Statement) (statements : List Statement) :
    ("\n".intercalate ((first :: statements).map Statement.text)).toList =
      first.text.toList ++ statements.flatMap fun s => '\n' :: s.text.toList := by
  induction statements generalizing first with
  | nil => simp
  | cons s statements ih =>
    rw [List.map_cons, List.map_cons, String.intercalate_cons_cons, String.toList_append,
      String.toList_append, ← List.map_cons, ih]
    simp

/-- A well-formed program is printed as its lexemes. -/
theorem Program.WellFormed.laid {p : Program} (h : p.WellFormed) :
    Laid p.text.toList (p.statements.toList.flatMap Statement.lexemes) := by
  have wellFormed : ∀ s ∈ p.statements.toList, s.WellFormed := by
    intro s hs
    exact h s (Array.mem_toList_iff.mp hs)
  rw [Program.text]
  cases same : p.statements.toList with
  | nil => exact .finish
  | cons first statements =>
    rw [same] at wellFormed
    have lines := laid_lines statements fun s hs => wellFormed s (by simp [hs])
    rw [toList_intercalate_newline, List.flatMap_cons]
    exact (wellFormed first (by simp)).laid isGap_nil lines

/-! ## Reading the lexemes of a program -/

/-- A binding that has no value is printed without an equals sign. -/
def Statement.isValued : Statement → Bool
  | letBinding _ _ none => false
  | _ => true

/-- The mismatch that a printed binding without a value is read with: a semicolon where
the equals sign must stand. -/
def Statement.missingSign? : Statement → Option Diagnostic
  | letBinding _ name none => some (.missingSign name.token ⟨.semicolon, ";", default⟩)
  | _ => none

theorem Identifier.WellFormed.bare_ofToken {name : Identifier} (h : name.WellFormed) {t : Token}
    (same : t.lexeme = name.token.lexeme) : (Identifier.ofToken t).bare = name.bare := by
  have literal : t.literal = name.token.literal := by
    simpa [Token.lexeme, String.toList_inj] using congrArg Lexeme.text same
  rw [bare, bare, ofToken, Token.bare_eq_iff.mpr same, literal, h.value_eq]

theorem Identifier.WellFormed.kind_of_lexeme {name : Identifier} (h : name.WellFormed) {t : Token}
    (same : t.lexeme = name.token.lexeme) : t.kind = .ident :=
  (congrArg Lexeme.kind same).trans h.kind_eq

theorem Diagnostic.bare_missingSign {name name' sign sign' : Token}
    (sameName : name.lexeme = name'.lexeme) (sameSign : sign.lexeme = sign'.lexeme) :
    (missingSign name sign).bare = (missingSign name' sign').bare := by
  have literals : ∀ {t u : Token}, t.lexeme = u.lexeme → t.kind = u.kind ∧ t.literal = u.literal := by
    intro t u same
    simpa [Token.lexeme, String.toList_inj] using same
  obtain ⟨_, literal⟩ := literals sameName
  obtain ⟨kind, sign⟩ := literals sameSign
  simp [missingSign, foundInstead, bare, Label.bare, Token.isIllegal, kind, sign, literal]

namespace Reader

variable {recovery : Recovery} {last t : Token} {more : List Token}

/-- What reading the tokens of one printed statement comes to. -/
structure ReadsBack (recovery : Recovery) (last : Token) (s : Statement) (tokens more : List Token)
    (kept : List Statement) (missed : List Diagnostic) : Prop where
  program_eq : name.program recovery last (tokens ++ more) =
    (kept ++ (name.program recovery last more).1, missed ++ (name.program recovery last more).2)
  kept_eq : kept.map Statement.bare = ([s].filter Statement.isValued).map Statement.bare
  missed_eq : missed.map Diagnostic.bare =
    ([s].filterMap Statement.missingSign?).map Diagnostic.bare

theorem program_semicolon (stop : t.kind = .semicolon) :
    name.program recovery last (t :: more) = name.program recovery last more :=
  name.program_cons_of_plain (by simp [stop]) (by simp [stop])

/-- A name with a semicolon behind it is read as the value. -/
theorem program_of_named {build : Option Expression → Statement} {rest : List Token}
    {value stop : Token}
    (turn : name.turn recovery last t rest =
      name.complete recovery build (value :: stop :: more) last)
    (named : value.kind = .ident) (stops : stop.kind = .semicolon) :
    name.program recovery last (t :: rest) =
      (build (some (.identifier (.ofToken value))) :: (name.program recovery last more).1,
        (name.program recovery last more).2) := by
  have first : ((value :: stop :: more).headD last).kind = .ident := named
  have read := read_name_of_eq first
  rw [name.program_of_complete turn (by rw [read]), read]
  simp [program_semicolon stops]

/-- A semicolon at once is read as no value. -/
theorem program_of_unnamed {build : Option Expression → Statement} {rest : List Token}
    {stop : Token}
    (turn : name.turn recovery last t rest = name.complete recovery build (stop :: more) last)
    (stops : stop.kind = .semicolon) :
    name.program recovery last (t :: rest) =
      (build none :: (name.program recovery last more).1, (name.program recovery last more).2) := by
  have first : ((stop :: more).headD last).kind ≠ .ident := by simp [stops]
  have read := read_name_of_ne first
  rw [name.program_of_complete turn (by rw [read]; rfl), read]
  simp [skip, stops]

/-- Behind a name without a sign, reading goes on behind the semicolon in both modes. -/
theorem program_of_unbound {rest : List Token} {binder stop : Token} {d : Diagnostic}
    (turn : name.turn recovery last t rest =
      ⟨none, [d], (recovery.leave (binder :: stop :: more)).tail⟩)
    (named : binder.kind = .ident) (stops : stop.kind = .semicolon) :
    name.program recovery last (t :: rest) =
      ((name.program recovery last more).1, d :: (name.program recovery last more).2) := by
  have noStop : binder.kind ≠ .semicolon := by simp [named]
  rw [program, turn, recovery_leave_tail, behindSemicolon_cons_of_ne noStop,
    behindSemicolon_cons_of_eq stops]
  cases recovery with
  | skipToken => simp [program_semicolon stops]
  | synchronize => simp

theorem readsBack_letBinding {keyword : Token} {binder : Identifier} {value : Option Expression}
    (h : (Statement.letBinding keyword binder value).WellFormed) {tokens : List Token}
    (same : tokens.map Token.lexeme = (Statement.letBinding keyword binder value).lexemes)
    (more : List Token) :
    ∃ kept missed, ReadsBack recovery last (.letBinding keyword binder value) tokens more kept
      missed := by
  obtain ⟨⟨kind, _⟩, named, values⟩ := h
  cases value with
  | some value =>
    simp only [Statement.lexemes, List.map_eq_cons_iff, List.map_eq_nil_iff] at same
    obtain ⟨t, _, rfl, ht, n, _, rfl, hn, a, _, rfl, ha, v, _, rfl, hv, stop, _, rfl, hs, rfl⟩ := same
    obtain ⟨value⟩ := value
    have valued : value.WellFormed := values _ rfl
    have word : t.kind = .letWord := (congrArg Lexeme.kind ht).trans kind
    have turn : name.turn recovery last t (n :: a :: v :: stop :: more) =
        name.complete recovery (.letBinding t (.ofToken n)) (v :: stop :: more) last :=
      name.turn_of_binding recovery word (named.kind_of_lexeme hn) (congrArg Lexeme.kind ha)
    refine ⟨[_], [], program_of_named turn (valued.kind_of_lexeme hv) (congrArg Lexeme.kind hs),
      ?_, rfl⟩
    simp [List.filter_cons, Statement.isValued, Statement.bare, Expression.bare,
      Token.bare_eq_iff.mpr ht, named.bare_ofToken hn, valued.bare_ofToken hv]
  | none =>
    simp only [Statement.lexemes, List.map_eq_cons_iff, List.map_eq_nil_iff] at same
    obtain ⟨t, _, rfl, ht, n, _, rfl, hn, stop, _, rfl, hs, rfl⟩ := same
    have word : t.kind = .letWord := (congrArg Lexeme.kind ht).trans kind
    have binds := named.kind_of_lexeme hn
    have stops : stop.kind = .semicolon := congrArg Lexeme.kind hs
    have turn : name.turn recovery last t (n :: stop :: more) =
        ⟨none, [.mismatch .assign n stop], (recovery.leave (n :: stop :: more)).tail⟩ :=
      name.turn_of_missing_sign recovery word binds (by simp [stops])
    refine ⟨[], [_], program_of_unbound turn binds stops, rfl, ?_⟩
    have sign : stop.lexeme = (⟨.semicolon, ";", default⟩ : Token).lexeme := hs
    simp [Statement.missingSign?, mismatch_assign binds, Diagnostic.bare_missingSign hn sign]

theorem readsBack_returning {keyword : Token} {value : Option Expression}
    (h : (Statement.returning keyword value).WellFormed) {tokens : List Token}
    (same : tokens.map Token.lexeme = (Statement.returning keyword value).lexemes)
    (more : List Token) :
    ∃ kept missed, ReadsBack recovery last (.returning keyword value) tokens more kept missed := by
  obtain ⟨⟨kind, _⟩, values⟩ := h
  cases value with
  | some value =>
    simp only [Statement.lexemes, List.map_eq_cons_iff, List.map_eq_nil_iff] at same
    obtain ⟨t, _, rfl, ht, v, _, rfl, hv, stop, _, rfl, hs, rfl⟩ := same
    obtain ⟨value⟩ := value
    have valued : value.WellFormed := values _ rfl
    have word : t.kind = .returnWord := (congrArg Lexeme.kind ht).trans kind
    refine ⟨[_], [], program_of_named (name.turn_of_return recovery word) (valued.kind_of_lexeme hv)
      (congrArg Lexeme.kind hs), ?_, rfl⟩
    simp [List.filter_cons, Statement.isValued, Statement.bare, Expression.bare,
      Token.bare_eq_iff.mpr ht, valued.bare_ofToken hv]
  | none =>
    simp only [Statement.lexemes, List.map_eq_cons_iff, List.map_eq_nil_iff] at same
    obtain ⟨t, _, rfl, ht, stop, _, rfl, hs, rfl⟩ := same
    have word : t.kind = .returnWord := (congrArg Lexeme.kind ht).trans kind
    refine ⟨[_], [], program_of_unnamed (name.turn_of_return recovery word)
      (congrArg Lexeme.kind hs), ?_, rfl⟩
    simp [List.filter_cons, Statement.isValued, Statement.bare, Token.bare_eq_iff.mpr ht]

theorem readsBack {s : Statement} (h : s.WellFormed) {tokens : List Token}
    (same : tokens.map Token.lexeme = s.lexemes) (more : List Token) :
    ∃ kept missed, ReadsBack recovery last s tokens more kept missed := by
  cases s with
  | letBinding => exact readsBack_letBinding h same more
  | returning => exact readsBack_returning h same more

/-- The statements of a printed program are read one after another. -/
theorem program_readsBack (statements : List Statement) (h : ∀ s ∈ statements, s.WellFormed)
    {tokens : List Token}
    (same : tokens.map Token.lexeme = statements.flatMap Statement.lexemes) :
    (name.program recovery last tokens).1.map Statement.bare =
        (statements.filter Statement.isValued).map Statement.bare ∧
      (name.program recovery last tokens).2.map Diagnostic.bare =
        (statements.filterMap Statement.missingSign?).map Diagnostic.bare := by
  induction statements generalizing tokens with
  | nil =>
    obtain rfl : tokens = [] := by simpa using same
    simp [program]
  | cons s statements ih =>
    rw [List.flatMap_cons, List.map_eq_append_iff] at same
    obtain ⟨first, others, rfl, sameFirst, sameOthers⟩ := same
    obtain ⟨kept, missed, reads⟩ : ∃ kept missed,
        ReadsBack recovery last s first others kept missed :=
      readsBack (h s (by simp)) sameFirst others
    obtain ⟨statementsEq, mismatchesEq⟩ := ih (fun t ht => h t (by simp [ht])) sameOthers
    rw [reads.program_eq]
    constructor
    · rw [List.map_append, reads.kept_eq, statementsEq, ← List.map_append, ← List.filter_append]
      rfl
    · rw [List.map_append, reads.missed_eq, mismatchesEq, ← List.map_append,
        ← List.filterMap_append]
      rfl

end Reader

/-! ## Reading the text of a program -/

theorem Statement.WellFormed.kind_ne_illegal {s : Statement} (h : s.WellFormed) :
    ∀ l ∈ s.lexemes, l.kind ≠ .illegal := by
  have names : ∀ e : Expression, e.WellFormed → e.lexeme.kind ≠ .illegal := by
    rintro ⟨name⟩ named
    simp [Expression.lexeme, Token.lexeme, Identifier.WellFormed.kind_eq named]
  cases s with
  | letBinding keyword name value =>
    obtain ⟨⟨kind, _⟩, named, values⟩ := h
    cases value with
    | none => simp [lexemes, Token.lexeme, kind, named.kind_eq]
    | some value => simp [lexemes, Token.lexeme, kind, named.kind_eq, names value (values value rfl)]
  | returning keyword value =>
    obtain ⟨⟨kind, _⟩, values⟩ := h
    cases value with
    | none => simp [lexemes, Token.lexeme, kind]
    | some value => simp [lexemes, Token.lexeme, kind, names value (values value rfl)]

/-- No character of a printed program is illegal. -/
theorem Program.WellFormed.diagnostics_tokenize {p : Program} (h : p.WellFormed) (file : FileId) :
    (tokenize p.text file).2 = #[] := by
  have legal : ∀ t ∈ (tokenize p.text file).1.toList, ¬ t.isIllegal = true := by
    intro t ht
    have mem := List.mem_map_of_mem (f := Token.lexeme) ht
    rw [h.laid.tokenize_eq file, List.mem_append, List.mem_flatMap] at mem
    rcases mem with ⟨s, hs, hl⟩ | eof
    · simpa [Token.isIllegal, Token.lexeme] using (h s (Array.mem_toList_iff.mp hs)).kind_ne_illegal _ hl
    · have kind : t.kind = .eof := congrArg Lexeme.kind (List.mem_singleton.mp eof)
      simp [Token.isIllegal, kind]
  rw [← Array.toList_inj, diagnostics_tokenize_text, List.filter_eq_nil_iff.mpr legal]
  rfl

/-- What reading a printed program gives: no illegal character, the statements without the
bindings that have no value, and a mismatch for each of those. -/
structure ReadAgain (p : Program) (read : Program × Window) : Prop where
  lexical : read.2.lexer.diagnostics = #[]
  statements : read.1.statements.toList.map Statement.bare =
    (p.statements.toList.filter Statement.isValued).map Statement.bare
  mismatches : read.2.diagnostics.toList.map Diagnostic.bare =
    (p.statements.toList.filterMap Statement.missingSign?).map Diagnostic.bare

theorem Program.WellFormed.readAgain {p : Program} (h : p.WellFormed) (file : FileId)
    (recovery : Recovery) : ReadAgain p (readWith .name p.text file recovery) := by
  obtain ⟨tokens, last, text⟩ := readWith_follows Rule.name_follows p.text file recovery
  have printed := h.laid.tokenize_eq file
  rw [text.tokens_eq, List.map_append] at printed
  obtain ⟨lexemes, _⟩ := List.append_inj' printed rfl
  have wellFormed : ∀ s ∈ p.statements.toList, s.WellFormed := by
    intro s hs
    exact h s (Array.mem_toList_iff.mp hs)
  obtain ⟨statements, mismatches⟩ := Reader.program_readsBack p.statements.toList wellFormed lexemes
  refine ⟨?_, ?_, ?_⟩
  · rw [text.lexer_diagnostics_eq, h.diagnostics_tokenize]
  · rw [text.statements_eq, statements]
  · rw [text.diagnostics_eq, mismatches]

theorem Statement.missingSign?_eq_none_iff (s : Statement) :
    s.missingSign? = none ↔ s.isValued = true := by
  cases s with
  | letBinding keyword name value => cases value <;> simp [missingSign?, isValued]
  | returning => simp [missingSign?, isValued]

/-- Reading succeeds and changes nothing exactly when each binding has a value. -/
theorem ReadAgain.unchanged_iff {p : Program} {read : Program × Window} (h : ReadAgain p read) :
    (read.2.lexer.diagnostics = #[] ∧ read.2.diagnostics = #[] ∧ read.1.text = p.text) ↔
      ∀ s ∈ p.statements, s.isValued = true := by
  have mismatches := h.mismatches
  constructor
  · rintro ⟨_, none, _⟩ s hs
    have nothing : p.statements.toList.filterMap Statement.missingSign? = [] := by
      simpa [none] using mismatches.symm
    rw [List.filterMap_eq_nil_iff] at nothing
    exact s.missingSign?_eq_none_iff.mp (nothing s (Array.mem_toList_iff.mpr hs))
  · intro valued
    have all : ∀ s ∈ p.statements.toList, s.isValued = true := by
      intro s hs
      exact valued s (Array.mem_toList_iff.mp hs)
    have nothing : p.statements.toList.filterMap Statement.missingSign? = [] := by
      rw [List.filterMap_eq_nil_iff]
      intro s hs
      exact s.missingSign?_eq_none_iff.mpr (all s hs)
    refine ⟨h.lexical, ?_, ?_⟩
    · rw [nothing] at mismatches
      simpa using mismatches
    · apply Program.text_eq_of_bare
      rw [h.statements, List.filter_eq_self.mpr all]

/-- Programs that are read are well formed, and a well-formed program is read again from its
text, but for the bindings that have no value. -/
theorem readWith_name_text :
    (∀ (source : String) (file : FileId) (recovery : Recovery),
      (readWith .name source file recovery).1.WellFormed) ∧
    ∀ p : Program, p.WellFormed → ∀ (file : FileId) (recovery : Recovery),
      let read := readWith .name p.text file recovery
      ReadAgain p read ∧
        ((read.2.lexer.diagnostics = #[] ∧ read.2.diagnostics = #[] ∧ read.1.text = p.text) ↔
          ∀ s ∈ p.statements, s.isValued = true) := by
  refine ⟨wellFormed_readWith_name, ?_⟩
  intro p h file recovery
  have again := h.readAgain file recovery
  exact ⟨again, again.unchanged_iff⟩

/-- A binding without a value is lost, and the statement behind it is read again. -/
theorem readWith_name_text_lost_binding :
    let x : Identifier := .ofToken ⟨.ident, "x", default⟩
    let p : Program := ⟨#[.letBinding ⟨.letWord, "let", default⟩ x none,
      .returning ⟨.returnWord, "return", default⟩ (some (.identifier x))]⟩
    p.WellFormed ∧ ReadAgain p (readWith .name p.text 0 .skipToken) ∧
      ¬ ∀ s ∈ p.statements, s.isValued = true := by
  intro x p
  have named : x.WellFormed := by
    refine ⟨rfl, by simp [x, Identifier.ofToken], ?_, ?_, rfl⟩
    · have letter : isLetter 'x' = true := by decide
      simp [x, Identifier.ofToken, letter]
    · intro kind
      cases kind <;> simp [x, Identifier.ofToken, Kind.isKeyword, Kind.text]
  have wellFormed : p.WellFormed := by
    simp [p, Program.WellFormed, Statement.WellFormed, Expression.WellFormed, named]
  refine ⟨wellFormed, (readWith_name_text.2 p wellFormed 0 .skipToken).1, ?_⟩
  simp [p, Statement.isValued]

end Monkey
