import Monkey.Proofs.Lexer.Relocation
import Monkey.Proofs.Parser.Segments

/-! # Programs at other places

Reading looks at the kinds and the literals of tokens and never at their places. So what
stands at other places gives the same statements and mismatches at those places, and tokens
that end with a semicolon are read apart from those behind them. -/

namespace Monkey

def Identifier.relocate (f : Span → Span) (name : Identifier) : Identifier :=
  { name with token := name.token.relocate f }

def Expression.relocate (f : Span → Span) : Expression → Expression
  | identifier name => identifier (name.relocate f)

namespace Statement

def relocate (f : Span → Span) : Statement → Statement
  | letBinding keyword name value =>
    letBinding (keyword.relocate f) (name.relocate f) (value.map (Expression.relocate f))
  | returning keyword value => returning (keyword.relocate f) (value.map (Expression.relocate f))

@[simp] theorem text_relocate (f : Span → Span) (s : Statement) : (s.relocate f).text = s.text := by
  cases s with
  | letBinding keyword name value => rcases value with _ | ⟨⟨_⟩⟩ <;> rfl
  | returning keyword value => rcases value with _ | ⟨⟨_⟩⟩ <;> rfl

theorem text_ne_empty (s : Statement) : s.text ≠ "" := by
  intro empty
  have chars := congrArg String.toList empty
  cases s with
  | letBinding keyword name value => cases value <;> simp [text] at chars
  | returning keyword value => cases value <;> simp [text] at chars

end Statement

/-! ## Segments -/

/-- What is read, at other places. -/
def relocateRead (f : Span → Span) (read : List Statement × List Diagnostic) :
    List Statement × List Diagnostic :=
  (read.1.map (Statement.relocate f), read.2.map (Diagnostic.relocate f))

theorem resumeSegment_relocate {f : Span → Span} {recovery : Recovery} {segment : List Token}
    (same : readSegment recovery (segment.map (Token.relocate f)) =
      relocateRead f (readSegment recovery segment)) :
    resumeSegment recovery (segment.map (Token.relocate f)) =
      relocateRead f (resumeSegment recovery segment) := by
  unfold resumeSegment
  split
  · exact same
  · rfl

theorem readSegment_relocate (f : Span → Span) (recovery : Recovery) (segment : List Token) :
    readSegment recovery (segment.map (Token.relocate f)) =
      relocateRead f (readSegment recovery segment) := by
  induction segment using readSegment.induct recovery with
  | case1 => rfl
  | case2 t rest word =>
    rw [List.map_cons, readSegment_of_return word, readSegment_of_return (by simpa using word)]
    rfl
  | case3 t noReturn word => simp [readSegment, word, relocateRead]
  | case4 t noReturn word name named => simp [readSegment, word, named, relocateRead]
  | case5 t noReturn word name named sign rest bound =>
    simp only [List.map_cons]
    rw [readSegment_of_binding word named bound, readSegment_of_binding (by simpa using word)
      (by simpa using named) (by simpa using bound)]
    rfl
  | case6 t noReturn word name named sign rest unbound ih =>
    have resumed := resumeSegment_relocate ih
    simp only [List.map_cons] at resumed ⊢
    rw [readSegment_of_missing_sign word named unbound, readSegment_of_missing_sign
      (by simpa using word) (by simpa using named) (by simpa using unbound), resumed]
    rfl
  | case7 t noReturn word name rest unnamed ih =>
    have resumed := resumeSegment_relocate ih
    simp only [List.map_cons] at resumed ⊢
    rw [readSegment_of_missing_name word unnamed, readSegment_of_missing_name
      (by simpa using word) (by simpa using unnamed), resumed]
    rfl
  | case8 t rest noReturn noLet ih =>
    rw [List.map_cons, readSegment_cons_of_plain noLet noReturn, readSegment_cons_of_plain
      (by simpa using noLet) (by simpa using noReturn), ih]

/-! ## Tokens read apart -/

/-- Tokens with a semicolon as the last one, or none at all. -/
def EndsStatement (tokens : List Token) : Prop := ∀ t ∈ tokens.getLast?, t.kind = .semicolon

/-- What is read from tokens hangs on their places in no other way than that it is read at those
places. Behind a semicolon it is read as if nothing stood before, and the end of a text gives
nothing. -/
structure ReadsApart {α : Type} (read : List Token → List α)
    (relocate : (Span → Span) → α → α) : Prop where
  nil : read [] = []
  eof : ∀ last : Token, last.kind = .eof → read [last] = []
  append : ∀ front rest, EndsStatement front → read (front ++ rest) = read front ++ read rest
  map : ∀ f tokens, read (tokens.map (Token.relocate f)) = (read tokens).map (relocate f)

theorem readsApart_illegal :
    ReadsApart (fun tokens => (tokens.filter Token.isIllegal).map Token.illegalCharacter)
      Diagnostic.relocate := by
  refine ⟨rfl, ?_, ?_, ?_⟩
  · intro last eof
    simp [Token.isIllegal, eof]
  · intro front rest _
    simp only [List.filter_append, List.map_append]
  · intro f tokens
    simp only [List.filter_map, List.map_map]
    rfl

theorem readSegments_relocate (f : Span → Span) (recovery : Recovery) (tokens : List Token) :
    readSegments recovery (tokens.map (Token.relocate f)) =
      relocateRead f (readSegments recovery tokens) := by
  have cut : segments (tokens.map (Token.relocate f)) =
      (segments tokens).map (List.map (Token.relocate f)) :=
    cutBehind_map (fun _ => rfl) tokens
  simp only [readSegments, relocateRead, cut, List.flatMap_map, readSegment_relocate,
    List.map_flatMap]

/-- Tokens up to a semicolon are read apart from what stands behind them. -/
theorem readSegments_append_of_ends {front : List Token} (ends : EndsStatement front)
    (recovery : Recovery) (rest : List Token) :
    readSegments recovery (front ++ rest) =
      ((readSegments recovery front).1 ++ (readSegments recovery rest).1,
        (readSegments recovery front).2 ++ (readSegments recovery rest).2) := by
  have cut : segments (front ++ rest) = segments front ++ segments rest :=
    cutBehind_append (by simpa [EndsStatement] using ends) rest
  simp only [readSegments, cut, List.flatMap_append]

theorem readsApart_statements (recovery : Recovery) :
    ReadsApart (fun tokens => (readSegments recovery tokens).1) Statement.relocate where
  nil := rfl
  eof _ eof := by rw [readSegments_nil eof]
  append _ rest ends := by rw [readSegments_append_of_ends ends recovery rest]
  map f tokens := by rw [readSegments_relocate f recovery tokens]; rfl

theorem readsApart_mismatches (recovery : Recovery) :
    ReadsApart (fun tokens => (readSegments recovery tokens).2) Diagnostic.relocate where
  nil := rfl
  eof _ eof := by rw [readSegments_nil eof]
  append _ rest ends := by rw [readSegments_append_of_ends ends recovery rest]
  map f tokens := by rw [readSegments_relocate f recovery tokens]; rfl

/-! ## Whole texts -/

/-- A text with its values passed over is read from its tokens alone. -/
theorem readProgram_eq_readSegments (source : String) (file : FileId) (recovery : Recovery) :
    ((readProgram source file recovery).1.statements.toList,
        (readProgram source file recovery).2.diagnostics.toList) =
      readSegments recovery (tokenize source file).1.toList := by
  obtain ⟨tokens, last, text⟩ := readWith_follows Rule.skip_follows source file recovery
  rw [text.tokens_eq, ← Reader.program_eq_readSegments recovery text.last_kind tokens]
  exact Prod.ext text.statements_eq text.diagnostics_eq

end Monkey
