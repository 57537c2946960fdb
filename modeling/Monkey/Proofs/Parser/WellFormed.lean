import Monkey.Proofs.Lexer.Scan
import Monkey.Proofs.Parser.Follows

/-! # Well-formed programs

A program is well formed when its tokens have the kinds and the texts that its
statements call for. A parser that keeps names as values gives such programs only. -/

namespace Monkey

/-! ## Well-formed trees -/

/-- An identifier that is spelled by its own token, which is no reserved word. -/
structure Identifier.WellFormed (name : Identifier) : Prop where
  kind_eq : name.token.kind = .ident
  nonempty : name.token.literal.toList ≠ []
  letters : ∀ c ∈ name.token.literal.toList, isLetter c = true
  free : ∀ kind : Kind, kind.isKeyword = true → name.token.literal ≠ kind.text
  value_eq : name.value = name.token.literal

def Expression.WellFormed : Expression → Prop
  | identifier name => name.WellFormed

/-- The keyword is the right one, and all names are well formed. -/
def Statement.WellFormed : Statement → Prop
  | letBinding keyword name value =>
    (keyword.kind = .letWord ∧ keyword.literal = "let") ∧ name.WellFormed ∧
      ∀ expression ∈ value, expression.WellFormed
  | returning keyword value =>
    (keyword.kind = .returnWord ∧ keyword.literal = "return") ∧
      ∀ expression ∈ value, expression.WellFormed

def Program.WellFormed (p : Program) : Prop := ∀ s ∈ p.statements, s.WellFormed

/-! ## Tokens and lexemes -/

theorem IsLexeme.text_of_isKeyword {l : Lexeme} (h : IsLexeme l) (hk : l.kind.isKeyword = true) :
    l.text = l.kind.text.toList := by
  cases h with
  | keyword | mark => rfl
  | ident | int | illegal => cases hk

/-- The token of a reserved word is spelled as that word. -/
theorem IsLexeme.literal_of_isKeyword {t : Token} (h : IsLexeme t.lexeme)
    (hk : t.kind.isKeyword = true) : t.literal = t.kind.text :=
  String.toList_inj.mp (h.text_of_isKeyword hk)

theorem IsLexeme.wellFormed_ofToken {t : Token} (h : IsLexeme t.lexeme) (hk : t.kind = .ident) :
    (Identifier.ofToken t).WellFormed := by
  generalize same : t.lexeme = l at h
  have kind : l.kind = .ident := by rw [← same, ← hk]; rfl
  have text : t.literal.toList = l.text := by rw [← same]; rfl
  cases h with
  | ident nonempty letters free =>
    refine ⟨hk, ?_, ?_, ?_, rfl⟩
    · exact text ▸ nonempty
    · exact text ▸ letters
    · intro kind isKeyword spelled
      exact free kind isKeyword (text.symm.trans (congrArg String.toList spelled))
  | keyword h | mark h =>
    obtain rfl : _ = Kind.ident := kind
    cases h
  | int | illegal => cases kind

/-- A well-formed name is a lexeme. -/
theorem Identifier.WellFormed.isLexeme {name : Identifier} (h : name.WellFormed) :
    IsLexeme name.token.lexeme := by
  rw [Token.lexeme, h.kind_eq]
  refine .ident h.nonempty h.letters ?_
  intro kind isKeyword spelled
  exact h.free kind isKeyword (String.toList_inj.mp spelled)

/-! ## Reading with names -/

namespace Reader

variable {recovery : Recovery} {tokens rest : List Token} {last t : Token}

theorem isLexeme_headD (lexemes : ∀ t ∈ tokens, IsLexeme t.lexeme) {kind : Kind}
    (h : (tokens.headD last).kind = kind) (other : last.kind ≠ kind) :
    IsLexeme (tokens.headD last).lexeme := by
  obtain ⟨t, rest, rfl, _⟩ := exists_cons_of_headD h other
  exact lexemes t (by simp)

/-- A reader of names never fails, and gives a well-formed name or nothing. -/
theorem read_name (eof : last.kind = .eof) (lexemes : ∀ t ∈ tokens, IsLexeme t.lexeme) :
    ∃ value, (name.read tokens last).outcome = .value value ∧
      ∀ expression ∈ value, expression.WellFormed := by
  by_cases named : (tokens.headD last).kind = .ident
  · have lexeme := isLexeme_headD lexemes named (by simp [eof])
    refine ⟨some (.identifier (.ofToken (tokens.headD last))), by rw [read_name_of_eq named], ?_⟩
    intro expression mem
    obtain rfl := Option.mem_some_iff.mp mem
    exact lexeme.wellFormed_ofToken named
  · exact ⟨none, by rw [read_name_of_ne named]; rfl, by simp⟩

theorem complete_name {build : Option Expression → Statement} (eof : last.kind = .eof)
    (lexemes : ∀ t ∈ tokens, IsLexeme t.lexeme)
    (wellFormed : ∀ value : Option Expression,
      (∀ expression ∈ value, expression.WellFormed) → (build value).WellFormed) :
    ∀ s ∈ (name.complete recovery build tokens last).statement, s.WellFormed := by
  obtain ⟨value, read, names⟩ := read_name eof lexemes
  rw [name.complete_of_value recovery read build]
  intro s mem
  obtain rfl := Option.mem_some_iff.mp mem
  exact wellFormed value names

theorem turn_name (eof : last.kind = .eof) (lexemes : ∀ u ∈ t :: rest, IsLexeme u.lexeme) :
    ∀ s ∈ (name.turn recovery last t rest).statement, s.WellFormed := by
  have lexeme := lexemes t (by simp)
  have lexemesRest : ∀ u ∈ rest, IsLexeme u.lexeme := fun u hu => lexemes u (by simp [hu])
  by_cases isReturn : t.kind = .returnWord
  · have spelled := lexeme.literal_of_isKeyword (by simp [isReturn, Kind.isKeyword])
    rw [isReturn] at spelled
    rw [name.turn_of_return recovery isReturn]
    exact complete_name eof lexemesRest fun value names => ⟨⟨isReturn, spelled⟩, names⟩
  by_cases isLet : t.kind = .letWord
  · have spelled := lexeme.literal_of_isKeyword (by simp [isLet, Kind.isKeyword])
    rw [isLet] at spelled
    by_cases named : (rest.headD last).kind = .ident
    · by_cases bound : (rest.tail.headD last).kind = .assign
      · have lexemeName := isLexeme_headD lexemesRest named (by simp [eof])
        have behind : ∀ u ∈ rest.tail.tail, IsLexeme u.lexeme := by
          intro u hu
          exact lexemesRest u (List.mem_of_mem_tail (List.mem_of_mem_tail hu))
        rw [name.turn_of_binding recovery isLet named bound]
        exact complete_name eof behind fun value names =>
          ⟨⟨isLet, spelled⟩, lexemeName.wellFormed_ofToken named, names⟩
      · simp [name.turn_of_missing_sign recovery isLet named bound]
    · simp [name.turn_of_missing_name recovery isLet named]
  · simp [name.turn_of_plain recovery isLet isReturn]

theorem program_name (eof : last.kind = .eof) (lexemes : ∀ t ∈ tokens, IsLexeme t.lexeme) :
    ∀ s ∈ (name.program recovery last tokens).1, s.WellFormed := by
  induction tokens using name.turn_induction recovery last with
  | finish => simp [program]
  | turn t rest ih =>
    have first : ∀ s ∈ (name.turn recovery last t rest).statement, s.WellFormed :=
      turn_name eof lexemes
    have others := ih fun u hu =>
      lexemes u (List.mem_cons_of_mem t ((name.left_turn_suffix recovery last t rest).mem hu))
    intro s mem
    rw [program] at mem
    rcases List.mem_append.mp mem with mem | mem
    · exact first s (by simpa using mem)
    · exact others s mem

end Reader

/-- Whatever the text, a parser that keeps names gives a well-formed program. -/
theorem wellFormed_readWith_name (source : String) (file : FileId) (recovery : Recovery) :
    (readWith .name source file recovery).1.WellFormed := by
  obtain ⟨tokens, last, text⟩ := readWith_follows Rule.name_follows source file recovery
  obtain ⟨init, same, lexemes⟩ := (scan_tokenize source file).exists_init
  rw [text.tokens_eq] at same
  obtain ⟨rfl, _⟩ := List.append_inj' same rfl
  intro s mem
  rw [← Array.mem_toList_iff, text.statements_eq] at mem
  exact Reader.program_name text.last_kind lexemes s mem

end Monkey
