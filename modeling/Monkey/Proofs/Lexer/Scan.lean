import Monkey.Proofs.Lexer.Place
import Monkey.Proofs.Lexer.Stream

/-! # Scans

A scan derives the tokens of a text from the lexemes in it, each behind a gap of blanks
and before a text that does not carry it on. The rules do not invoke the lexer; a lexer
gives exactly the tokens of the one scan that there is. -/

namespace Monkey

/-- The kind and the text of a token, without its place. -/
def Token.lexeme (t : Token) : Lexeme := ⟨t.kind, t.literal.toList⟩

/-- A run of characters that are passed over between lexemes. -/
def IsGap (gap : List Char) : Prop := ∀ c ∈ gap, isBlank c = true

theorem isGap_nil : IsGap [] := nofun

theorem isGap_singleton {c : Char} (blank : isBlank c = true) : IsGap [c] := by
  simpa [IsGap] using blank

/-- The token of a lexeme that stands behind the given part of a text. -/
def Lexeme.tokenBehind (l : Lexeme) (before : List Char) (file : FileId) : Token :=
  ⟨l.kind, String.ofList l.text,
    ⟨Position.first.afterText before, Position.first.afterText (before ++ l.text), file⟩⟩

@[simp] theorem Lexeme.lexeme_tokenBehind (l : Lexeme) (before : List Char) (file : FileId) :
    (l.tokenBehind before file).lexeme = l := by
  simp [tokenBehind, Token.lexeme]

/-- The token of the end of a text. -/
def Token.endBehind (before : List Char) (file : FileId) : Token :=
  ⟨.eof, "", .point (Position.first.afterText before) file⟩

/-- The part of a text that is passed, the rest of it, and the tokens of the rest. -/
inductive Scan (file : FileId) : List Char → List Char → List Token → Prop
  | finish {passed gap : List Char} (blank : IsGap gap) :
      Scan file passed gap [.endBehind (passed ++ gap) file]
  | token {passed gap rest : List Char} {l : Lexeme} {tokens : List Token} (blank : IsGap gap)
      (lexeme : IsLexeme l) (stops : l.StopsAt rest)
      (more : Scan file (passed ++ gap ++ l.text) rest tokens) :
      Scan file passed (gap ++ l.text ++ rest) (l.tokenBehind (passed ++ gap) file :: tokens)

namespace Lexer

/-! ## One token -/

/-- The lexer that has come to a place in its text. -/
def movedTo (lexer : Lexer) (passed rest : List Char) : Lexer :=
  { lexer with cursor := .between passed rest }

/-- The lexer that has recorded a token if it is illegal. -/
def recording (lexer : Lexer) (t : Token) : Lexer :=
  { lexer with diagnostics :=
      if t.isIllegal then lexer.diagnostics.push t.illegalCharacter else lexer.diagnostics }

variable {lexer : Lexer} {passed gap rest : List Char}

theorem afterBlanks_eq (h : lexer.cursor = .between passed (gap ++ rest)) (blank : IsGap gap)
    (stop : ∀ c ∈ rest.head?, isBlank c = false) :
    lexer.afterBlanks = .between (passed ++ gap) rest := by
  have taken : (gap ++ rest).takeWhile isBlank = gap := by
    rw [takeWhile_append_eq_self blank]
    simpa using stop
  rw [afterBlanks, h, Cursor.between_rest, taken, Cursor.advanceOver_between]

theorem next_of_isGap (h : lexer.cursor = .between passed gap) (blank : IsGap gap) :
    lexer.next = (.endBehind (passed ++ gap) lexer.file, lexer.movedTo (passed ++ gap) []) := by
  have start : lexer.afterBlanks = .between (passed ++ gap) [] :=
    afterBlanks_eq (by simpa using h) blank (by simp)
  rw [next_of_end (by rw [start]; rfl), start]
  rfl

theorem next_of_lexeme {l : Lexeme} (h : lexer.cursor = .between passed (gap ++ l.text ++ rest))
    (blank : IsGap gap) (lexeme : IsLexeme l) (stops : l.StopsAt rest) :
    lexer.next = (l.tokenBehind (passed ++ gap) lexer.file,
      (lexer.movedTo (passed ++ gap ++ l.text) rest).recording
        (l.tokenBehind (passed ++ gap) lexer.file)) := by
  obtain ⟨c, cs, text⟩ := List.exists_cons_of_ne_nil lexeme.text_ne_nil
  have start : lexer.afterBlanks = .between (passed ++ gap) (l.text ++ rest) := by
    refine afterBlanks_eq (by rw [h, List.append_assoc]) blank ?_
    simpa [text] using lexeme.isBlank_of_mem c (by simp [text])
  have read : Lexeme.read c (cs ++ rest) = l := (Lexeme.read_eq_iff lexeme text rest).mpr stops
  have token : l.token lexer.afterBlanks lexer.file = l.tokenBehind (passed ++ gap) lexer.file := by
    rw [Lexeme.token, start, Cursor.advanceOver_between]
    rfl
  have front : lexer.afterBlanks.rest = c :: (cs ++ rest) := by
    rw [start, text]
    rfl
  rw [next_of_cons front, read, token, start, Cursor.advanceOver_between]
  rfl

/-- What reading one token can do: it ends on blanks, or takes off one lexeme. -/
theorem next_cases (h : lexer.cursor = .between passed rest) :
    (IsGap rest ∧
      lexer.next = (.endBehind (passed ++ rest) lexer.file, lexer.movedTo (passed ++ rest) [])) ∨
    ∃ gap l more, rest = gap ++ l.text ++ more ∧ IsGap gap ∧ IsLexeme l ∧ l.StopsAt more ∧
      lexer.next = (l.tokenBehind (passed ++ gap) lexer.file,
        (lexer.movedTo (passed ++ gap ++ l.text) more).recording
          (l.tokenBehind (passed ++ gap) lexer.file)) := by
  have blank : IsGap (rest.takeWhile isBlank) := fun c hc => List.mem_takeWhile_imp hc
  have split := List.takeWhile_append_dropWhile (p := isBlank) (l := rest)
  cases start : rest.dropWhile isBlank with
  | nil =>
    rw [start, List.append_nil] at split
    rw [split] at blank
    exact .inl ⟨blank, next_of_isGap h blank⟩
  | cons c cs =>
    have notBlank : isBlank c = false := by
      simpa [start] using List.head?_dropWhile_not isBlank rest
    obtain ⟨l, more, lexeme, stops, text, _⟩ := Lexeme.exists_read notBlank cs
    rw [start, text, ← List.append_assoc] at split
    exact .inr ⟨_, l, more, split.symm, blank, lexeme, stops,
      next_of_lexeme (by rw [h, split]) blank lexeme stops⟩

/-! ## The lexer scans -/

/-- A lexer gives the tokens of a scan of what it has not read. -/
theorem scan_stream (h : lexer.cursor = .between passed rest) :
    Scan lexer.file passed rest lexer.stream := by
  induction lexer using next_induction generalizing passed rest with
  | finish lexer eof =>
    rcases next_cases h with ⟨blank, same⟩ | ⟨gap, l, more, _, _, lexeme, _, same⟩
    · rw [stream_of_eof eof, same]
      exact .finish blank
    · rw [same] at eof
      exact absurd eof lexeme.kind_ne_eof
  | token lexer more ih =>
    rcases next_cases h with ⟨_, same⟩ | ⟨gap, l, text, rfl, blank, lexeme, stops, same⟩
    · rw [same] at more
      exact absurd rfl more
    · rw [stream_of_ne_eof more]
      rw [same] at ih ⊢
      exact .token blank lexeme stops (ih rfl)

end Lexer

/-- The tokens of a scan are the ones that a lexer gives. -/
theorem Scan.stream_eq {file : FileId} {passed rest : List Char} {tokens : List Token}
    (scan : Scan file passed rest tokens) {lexer : Lexer} (h : lexer.cursor = .between passed rest)
    (sameFile : lexer.file = file) : lexer.stream = tokens := by
  subst sameFile
  generalize hf : lexer.file = file at scan
  induction scan generalizing lexer with
  | finish blank =>
    have next := Lexer.next_of_isGap h blank
    rw [Lexer.stream_of_eof (by rw [next]; rfl), next, hf]
  | @token passed gap rest l tokens blank lexeme stops more ih =>
    have next := Lexer.next_of_lexeme h blank lexeme stops
    have tail : lexer.next.2.stream = tokens := by
      rw [next]
      exact ih rfl hf
    rw [Lexer.stream_of_ne_eof (by rw [next]; exact lexeme.kind_ne_eof), tail, next, hf]

theorem scan_iff {lexer : Lexer} {passed rest : List Char} {tokens : List Token}
    (h : lexer.cursor = .between passed rest) :
    Scan lexer.file passed rest tokens ↔ lexer.stream = tokens := by
  refine ⟨fun scan => scan.stream_eq h rfl, ?_⟩
  rintro rfl
  exact Lexer.scan_stream h

/-- The tokens of a text are the ones of its scan. -/
theorem scan_tokenize_iff (source : String) (file : FileId) (tokens : List Token) :
    Scan file [] source.toList tokens ↔ (tokenize source file).1.toList = tokens := by
  have start : (Lexer.ofText source file).cursor = .between [] source.toList := rfl
  exact scan_iff start

theorem scan_tokenize (source : String) (file : FileId) :
    Scan file [] source.toList (tokenize source file).1.toList :=
  (scan_tokenize_iff source file _).mpr rfl

namespace Scan

variable {file : FileId} {passed rest : List Char} {tokens : List Token}

/-- A scan ends with the end of the text, and with nothing else of that kind. -/
theorem exists_init (scan : Scan file passed rest tokens) :
    ∃ init, tokens = init ++ [.endBehind (passed ++ rest) file] ∧
      ∀ t ∈ init, IsLexeme t.lexeme := by
  induction scan with
  | finish => exact ⟨[], rfl, by simp⟩
  | @token passed gap rest l tokens _ lexeme _ _ ih =>
    obtain ⟨init, rfl, lexemes⟩ := ih
    refine ⟨l.tokenBehind (passed ++ gap) file :: init, by simp, ?_⟩
    simpa [lexeme] using lexemes

end Scan

/-! ## Illegal characters -/

theorem IsLexeme.literal_of_isIllegal {t : Token} (h : IsLexeme t.lexeme)
    (illegal : t.isIllegal = true) : ∃ c : Char, t.literal = c.toString := by
  generalize same : t.lexeme = l at h
  have kind : l.kind = .illegal := by
    rw [← same]
    exact beq_iff_eq.mp illegal
  cases h with
  | @illegal c =>
    have text : t.literal.toList = [c] := congrArg Lexeme.text same
    exact ⟨c, String.toList_inj.mp (by simp [text, Char.toString])⟩
  | keyword h | mark h =>
    obtain rfl : _ = Kind.illegal := kind
    cases h
  | ident | int => cases kind

theorem illegalCharacter_eq {source : String} {file : FileId} {t : Token}
    (mem : t ∈ (tokenize source file).1) (illegal : t.isIllegal = true) :
    ∃ c : Char, t.literal = c.toString ∧
      t.illegalCharacter = {
        code := some .illegalCharacter
        message := s!"illegal character '{c}'"
        labels := [⟨t.span, "not part of the Monkey language", true⟩]
        notes := []
        help := [] } := by
  obtain ⟨init, all, lexemes⟩ := (scan_tokenize source file).exists_init
  rw [← Array.mem_toList_iff, all, List.mem_append] at mem
  rcases mem with mem | last
  · obtain ⟨c, literal⟩ := (lexemes t mem).literal_of_isIllegal illegal
    refine ⟨c, literal, ?_⟩
    rw [Token.illegalCharacter, literal]
    rfl
  · obtain rfl := List.mem_singleton.mp last
    cases illegal

end Monkey
