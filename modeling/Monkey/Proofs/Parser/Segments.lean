import Monkey.Parser.Basic
import Monkey.Proofs.Parser.Follows
import Monkey.Proofs.Source.Cut

/-! # Segments

The tokens of a text are cut behind each semicolon, and each segment is read for itself,
from its tokens alone. Main statement: a parser that passes over values gives what the
segments give, one after another. -/

namespace Monkey

/-! ## Cutting -/

/-- The tokens cut behind each semicolon. -/
def segments (tokens : List Token) : List (List Token) := cutBehind (·.kind = .semicolon) tokens

/-! ## Reading one segment -/

/-- The diagnostic for a token found behind another one where something else must stand. -/
def Diagnostic.foundInstead (expected help : String) (after found : Token) : Diagnostic where
  code := some .unexpectedToken
  message := s!"expected next token to be `{expected}`, got `{found.kind.text}` instead"
  labels := [
    ⟨found.span, s!"found: {found.kind.text}", true⟩,
    ⟨after.span, s!"after `{after.literal}`", false⟩]
  notes := if found.isIllegal then [s!"`{found.literal}` is not a valid token"] else []
  help := [help]

def Diagnostic.missingName (keyword found : Token) : Diagnostic :=
  foundInstead "IDENT" "a binding needs a name: `let <name> = <value>;`" keyword found

def Diagnostic.missingSign (name found : Token) : Diagnostic :=
  foundInstead "=" "bind a value with `=`: `let <name> = <value>;`" name found

/-- The statement of a segment stands behind its first keyword. A mismatch behind `let`
ends the segment, unless single tokens are skipped: then the token that does not fit is
looked at again. -/
def readSegment (recovery : Recovery) : List Token → List Statement × List Diagnostic
  | [] => ([], [])
  | t :: rest =>
    if t.kind = .returnWord then ([.returning t none], [])
    else if t.kind = .letWord then
      match rest with
      | [] => ([], [])
      | name :: others =>
        if name.kind = .ident then
          match others with
          | [] => ([], [])
          | sign :: signs =>
            if sign.kind = .assign then ([.letBinding t (.ofToken name) none], [])
            else
              let more :=
                if recovery = .skipToken then readSegment recovery (sign :: signs) else ([], [])
              (more.1, .missingSign name sign :: more.2)
        else
          let more :=
            if recovery = .skipToken then readSegment recovery (name :: others) else ([], [])
          (more.1, .missingName t name :: more.2)
    else readSegment recovery rest

/-- All segments, one after another. -/
def readSegments (recovery : Recovery) (tokens : List Token) :
    List Statement × List Diagnostic :=
  ((segments tokens).flatMap fun segment => (readSegment recovery segment).1,
    (segments tokens).flatMap fun segment => (readSegment recovery segment).2)

/-! ## The first segment -/

/-- The first segment of some tokens with a last one behind them. -/
def firstSegment (tokens : List Token) (last : Token) : List Token :=
  tokens.takeWhile (·.kind != .semicolon) ++ [(tokens.dropWhile (·.kind != .semicolon)).headD last]

/-- What stands behind the first semicolon. -/
def behindSemicolon (tokens : List Token) : List Token :=
  (tokens.dropWhile (·.kind != .semicolon)).tail

section

variable {t last : Token} {tokens : List Token}

theorem firstSegment_cons_of_eq (h : t.kind = .semicolon) :
    firstSegment (t :: tokens) last = [t] := by
  simp [firstSegment, h]

theorem firstSegment_cons_of_ne (h : t.kind ≠ .semicolon) :
    firstSegment (t :: tokens) last = t :: firstSegment tokens last := by
  simp [firstSegment, h]

theorem behindSemicolon_cons_of_eq (h : t.kind = .semicolon) :
    behindSemicolon (t :: tokens) = tokens := by
  simp [behindSemicolon, h]

theorem behindSemicolon_cons_of_ne (h : t.kind ≠ .semicolon) :
    behindSemicolon (t :: tokens) = behindSemicolon tokens := by
  simp [behindSemicolon, h]

theorem firstSegment_append {gap : List Token} (h : ∀ t ∈ gap, t.kind ≠ .semicolon) :
    firstSegment (gap ++ tokens) last = gap ++ firstSegment tokens last := by
  have plain : ∀ t ∈ gap, (t.kind != .semicolon) = true := fun t ht => bne_iff_ne.mpr (h t ht)
  rw [firstSegment, List.takeWhile_append_of_pos plain, List.dropWhile_append_of_pos plain,
    List.append_assoc]
  rfl

theorem behindSemicolon_append {gap : List Token} (h : ∀ t ∈ gap, t.kind ≠ .semicolon) :
    behindSemicolon (gap ++ tokens) = behindSemicolon tokens := by
  have plain : ∀ t ∈ gap, (t.kind != .semicolon) = true := fun t ht => bne_iff_ne.mpr (h t ht)
  rw [behindSemicolon, List.dropWhile_append_of_pos plain]
  rfl

theorem exists_firstSegment_eq (tokens : List Token) (last : Token) :
    ∃ more, firstSegment tokens last = tokens.headD last :: more := by
  cases tokens with
  | nil => exact ⟨[], rfl⟩
  | cons t tokens =>
    by_cases h : t.kind = .semicolon
    · exact ⟨[], firstSegment_cons_of_eq h⟩
    · exact ⟨firstSegment tokens last, firstSegment_cons_of_ne h⟩

theorem length_behindSemicolon_lt (t : Token) (tokens : List Token) :
    (behindSemicolon (t :: tokens)).length < (t :: tokens).length := by
  have bound := (List.dropWhile_suffix (l := t :: tokens) (·.kind != .semicolon)).length_le
  rw [behindSemicolon, List.length_tail]
  rw [List.length_cons] at *
  omega

/-- The first segment is cut off, and the cut goes on behind the semicolon, if any. -/
theorem segments_append (eof : last.kind = .eof) (tokens : List Token) :
    ∃ more, segments (tokens ++ [last]) = firstSegment tokens last :: more ∧
      (more = segments (behindSemicolon tokens ++ [last]) ∨
        more = [] ∧ behindSemicolon tokens = []) := by
  have lastPlain : last.kind ≠ .semicolon := by simp [eof]
  induction tokens using cut_induction fun t : Token => t.kind = .semicolon with
  | nil => exact ⟨[], by simp [segments, cutBehind, lastPlain, firstSegment], .inr ⟨rfl, rfl⟩⟩
  | last body free _ =>
    have plain : ∀ t ∈ body, t.kind ≠ .semicolon := fun t mem => of_decide_eq_false (free t mem)
    have whole : firstSegment (body ++ []) last = body ++ [last] := firstSegment_append plain
    have behind : behindSemicolon (body ++ []) = [] := behindSemicolon_append plain
    rw [List.append_nil] at whole behind
    refine ⟨[], ?_, .inr ⟨rfl, behind⟩⟩
    rw [whole]
    refine cutBehind_of_free (fun t mem => decide_eq_false ?_) (by simp)
    rcases List.mem_append.mp mem with inBody | isLast
    · exact plain t inBody
    · exact List.mem_singleton.mp isLast ▸ lastPlain
  | mark body stop rest free isStop _ =>
    have plain : ∀ t ∈ body, t.kind ≠ .semicolon := fun t mem => of_decide_eq_false (free t mem)
    have isSemicolon : stop.kind = .semicolon := of_decide_eq_true isStop
    refine ⟨segments (rest ++ [last]), ?_, .inl ?_⟩
    · rw [firstSegment_append plain, firstSegment_cons_of_eq isSemicolon, List.append_assoc]
      exact cutBehind_mark free isStop (rest ++ [last])
    · rw [behindSemicolon_append plain, behindSemicolon_cons_of_eq isSemicolon]

end

theorem readSegments_nil {last : Token} (eof : last.kind = .eof) (recovery : Recovery) :
    readSegments recovery [last] = ([], []) := by
  simp [readSegments, segments, cutBehind, eof, readSegment]

/-- The first segment, and then the others. -/
theorem readSegments_append {last : Token} (eof : last.kind = .eof) (recovery : Recovery)
    (tokens : List Token) :
    readSegments recovery (tokens ++ [last]) =
      ((readSegment recovery (firstSegment tokens last)).1 ++
          (readSegments recovery (behindSemicolon tokens ++ [last])).1,
        (readSegment recovery (firstSegment tokens last)).2 ++
          (readSegments recovery (behindSemicolon tokens ++ [last])).2) := by
  obtain ⟨more, same, rest⟩ := segments_append eof tokens
  rcases rest with rfl | ⟨rfl, finish⟩
  · simp [readSegments, same]
  · rw [finish, List.nil_append, readSegments_nil eof]
    simp [readSegments, same]

/-! ## A segment and a turn -/

theorem mismatch_ident {keyword : Token} (h : keyword.kind = .letWord) (found : Token) :
    Diagnostic.mismatch .ident keyword found = .missingName keyword found := by
  rw [Diagnostic.mismatch, h]
  rfl

theorem mismatch_assign {name : Token} (h : name.kind = .ident) (found : Token) :
    Diagnostic.mismatch .assign name found = .missingSign name found := by
  rw [Diagnostic.mismatch, h]
  rfl

theorem readSegment_cons_of_plain {t : Token} (noLet : t.kind ≠ .letWord)
    (noReturn : t.kind ≠ .returnWord) (recovery : Recovery) (segment : List Token) :
    readSegment recovery (t :: segment) = readSegment recovery segment := by
  rw [readSegment.eq_def]
  simp only [noReturn, noLet, if_false]

theorem readSegment_of_return {t : Token} (word : t.kind = .returnWord) (recovery : Recovery)
    (segment : List Token) :
    readSegment recovery (t :: segment) = ([.returning t none], []) := by
  rw [readSegment.eq_def]
  simp only [word, if_true]

section

variable {t name sign : Token} (word : t.kind = .letWord)

include word

theorem readSegment_of_binding (named : name.kind = .ident) (bound : sign.kind = .assign)
    (recovery : Recovery) (segment : List Token) :
    readSegment recovery (t :: name :: sign :: segment) =
      ([.letBinding t (.ofToken name) none], []) := by
  rw [readSegment.eq_def]
  simp [word, named, bound]

/-- Behind a mismatch, what the rest of a segment still gives. -/
def resumeSegment (recovery : Recovery) (segment : List Token) : List Statement × List Diagnostic :=
  if recovery = .skipToken then readSegment recovery segment else ([], [])

theorem readSegment_of_missing_sign (named : name.kind = .ident) (unbound : sign.kind ≠ .assign)
    (recovery : Recovery) (segment : List Token) :
    readSegment recovery (t :: name :: sign :: segment) =
      ((resumeSegment recovery (sign :: segment)).1,
        .missingSign name sign :: (resumeSegment recovery (sign :: segment)).2) := by
  rw [readSegment.eq_def]
  simp [word, named, unbound, resumeSegment]

theorem readSegment_of_missing_name (unnamed : name.kind ≠ .ident)
    (recovery : Recovery) (segment : List Token) :
    readSegment recovery (t :: name :: segment) =
      ((resumeSegment recovery (name :: segment)).1,
        .missingName t name :: (resumeSegment recovery (name :: segment)).2) := by
  rw [readSegment.eq_def]
  simp [word, unnamed, resumeSegment]

end

theorem recovery_leave_tail (recovery : Recovery) (tokens : List Token) :
    (recovery.leave tokens).tail =
      if recovery = .skipToken then tokens.tail else behindSemicolon tokens := by
  cases recovery <;> rfl

namespace Reader

variable {recovery : Recovery} {last t : Token} {rest : List Token}

/-- Reading some tokens is reading their first segment and going on behind it. -/
def ReadsFirst (recovery : Recovery) (last : Token) (tokens : List Token) : Prop :=
  skip.program recovery last tokens =
    ((readSegment recovery (firstSegment tokens last)).1 ++
        (skip.program recovery last (behindSemicolon tokens)).1,
      (readSegment recovery (firstSegment tokens last)).2 ++
        (skip.program recovery last (behindSemicolon tokens)).2)

/-- Reading goes on behind a mismatch as the mode of recovery says. -/
theorem program_of_mismatch {d : Diagnostic} {tokens left : List Token}
    (turn : skip.turn recovery last t rest = ⟨none, [d], left⟩)
    (resume : left = if recovery = .skipToken then tokens else behindSemicolon tokens)
    (first : ReadsFirst recovery last left) :
    skip.program recovery last (t :: rest) =
      ((resumeSegment recovery (firstSegment tokens last)).1 ++
          (skip.program recovery last (behindSemicolon tokens)).1,
        d :: ((resumeSegment recovery (firstSegment tokens last)).2 ++
          (skip.program recovery last (behindSemicolon tokens)).2)) := by
  rw [program, turn]
  cases recovery with
  | skipToken =>
    obtain rfl : left = tokens := by simpa using resume
    dsimp only
    rw [first]
    simp [resumeSegment]
  | synchronize =>
    obtain rfl : left = behindSemicolon tokens := by simpa using resume
    simp [resumeSegment]

theorem readsFirst_of_return (word : t.kind = .returnWord) :
    ReadsFirst recovery last (t :: rest) := by
  have noStop : t.kind ≠ .semicolon := by simp [word]
  rw [ReadsFirst, firstSegment_cons_of_ne noStop, behindSemicolon_cons_of_ne noStop,
    readSegment_of_return word, skip.program_of_complete (skip.turn_of_return recovery word) rfl]
  rfl

theorem readsFirst_of_plain (noLet : t.kind ≠ .letWord) (noReturn : t.kind ≠ .returnWord)
    (first : ReadsFirst recovery last rest) : ReadsFirst recovery last (t :: rest) := by
  rw [ReadsFirst, skip.program_cons_of_plain noLet noReturn]
  by_cases stop : t.kind = .semicolon
  · have nothing : readSegment recovery [t] = ([], []) :=
      readSegment_cons_of_plain noLet noReturn recovery []
    rw [firstSegment_cons_of_eq stop, behindSemicolon_cons_of_eq stop, nothing]
    rfl
  · rw [firstSegment_cons_of_ne stop, behindSemicolon_cons_of_ne stop,
      readSegment_cons_of_plain noLet noReturn]
    exact first

theorem readsFirst_of_binding (word : t.kind = .letWord) {binder sign : Token}
    (named : binder.kind = .ident) (bound : sign.kind = .assign) :
    ReadsFirst recovery last (t :: binder :: sign :: rest) := by
  have turn : skip.turn recovery last t (binder :: sign :: rest) =
      skip.complete recovery (.letBinding t (.ofToken binder)) rest last :=
    skip.turn_of_binding recovery word named bound
  have tNoStop : t.kind ≠ .semicolon := by simp [word]
  have binderNoStop : binder.kind ≠ .semicolon := by simp [named]
  have signNoStop : sign.kind ≠ .semicolon := by simp [bound]
  rw [ReadsFirst, skip.program_of_complete turn rfl, firstSegment_cons_of_ne tNoStop,
    firstSegment_cons_of_ne binderNoStop, firstSegment_cons_of_ne signNoStop,
    behindSemicolon_cons_of_ne tNoStop, behindSemicolon_cons_of_ne binderNoStop,
    behindSemicolon_cons_of_ne signNoStop, readSegment_of_binding word named bound]
  rfl

theorem readsFirst_of_missing_sign (word : t.kind = .letWord) {binder : Token}
    (named : binder.kind = .ident) (unbound : (rest.headD last).kind ≠ .assign)
    (first : ReadsFirst recovery last (recovery.leave (binder :: rest)).tail) :
    ReadsFirst recovery last (t :: binder :: rest) := by
  have tNoStop : t.kind ≠ .semicolon := by simp [word]
  have binderNoStop : binder.kind ≠ .semicolon := by simp [named]
  have turn : skip.turn recovery last t (binder :: rest) =
      ⟨none, [.mismatch .assign binder (rest.headD last)],
        (recovery.leave (binder :: rest)).tail⟩ :=
    skip.turn_of_missing_sign recovery word named unbound
  have leave : (recovery.leave (binder :: rest)).tail =
      if recovery = .skipToken then rest else behindSemicolon rest := by
    rw [recovery_leave_tail, behindSemicolon_cons_of_ne binderNoStop]
    rfl
  obtain ⟨more, segment⟩ := exists_firstSegment_eq rest last
  rw [ReadsFirst, program_of_mismatch turn leave first, firstSegment_cons_of_ne tNoStop,
    firstSegment_cons_of_ne binderNoStop, behindSemicolon_cons_of_ne tNoStop,
    behindSemicolon_cons_of_ne binderNoStop, segment,
    readSegment_of_missing_sign word named unbound, mismatch_assign named]
  rfl

theorem readsFirst_of_missing_name (word : t.kind = .letWord)
    (unnamed : (rest.headD last).kind ≠ .ident)
    (first : ReadsFirst recovery last (recovery.leave (t :: rest)).tail) :
    ReadsFirst recovery last (t :: rest) := by
  have noStop : t.kind ≠ .semicolon := by simp [word]
  have turn := skip.turn_of_missing_name recovery word unnamed
  have leave : (recovery.leave (t :: rest)).tail =
      if recovery = .skipToken then rest else behindSemicolon rest := by
    rw [recovery_leave_tail, behindSemicolon_cons_of_ne noStop]
    rfl
  obtain ⟨more, segment⟩ := exists_firstSegment_eq rest last
  rw [ReadsFirst, program_of_mismatch turn leave first, firstSegment_cons_of_ne noStop,
    behindSemicolon_cons_of_ne noStop, segment, readSegment_of_missing_name word unnamed,
    mismatch_ident word]
  rfl

theorem readsFirst_of_let (eof : last.kind = .eof) (word : t.kind = .letWord)
    (first : ReadsFirst recovery last (skip.turn recovery last t rest).left) :
    ReadsFirst recovery last (t :: rest) := by
  by_cases named : (rest.headD last).kind = .ident
  · by_cases bound : (rest.tail.headD last).kind = .assign
    · obtain ⟨binder, others, rfl, isName⟩ := exists_cons_of_headD named (by simp [eof])
      obtain ⟨sign, signs, rfl, isSign⟩ := exists_cons_of_headD bound (by simp [eof])
      exact readsFirst_of_binding word isName isSign
    · rw [skip.turn_of_missing_sign recovery word named bound] at first
      obtain ⟨binder, others, rfl, isName⟩ := exists_cons_of_headD named (by simp [eof])
      exact readsFirst_of_missing_sign word isName bound first
  · rw [skip.turn_of_missing_name recovery word named] at first
    exact readsFirst_of_missing_name word named first

theorem readsFirst (eof : last.kind = .eof) (tokens : List Token) :
    ReadsFirst recovery last tokens := by
  -- The tokens left after a turn carry the induction: they stand behind a statement, at
  -- the token that does not fit, or behind the semicolon at which recovery stops.
  induction tokens using skip.turn_induction recovery last with
  | finish =>
    have nothing : readSegment recovery [last] = ([], []) :=
      readSegment_cons_of_plain (by simp [eof]) (by simp [eof]) recovery []
    simp [ReadsFirst, firstSegment, behindSemicolon, nothing]
  | turn t rest ih =>
    by_cases isReturn : t.kind = .returnWord
    · exact readsFirst_of_return isReturn
    by_cases isLet : t.kind = .letWord
    · exact readsFirst_of_let eof isLet ih
    · rw [skip.turn_of_plain recovery isLet isReturn] at ih
      exact readsFirst_of_plain isLet isReturn ih

/-- The tokens are read segment by segment. -/
theorem program_eq_readSegments (recovery : Recovery) (eof : last.kind = .eof)
    (tokens : List Token) :
    skip.program recovery last tokens = readSegments recovery (tokens ++ [last]) := by
  induction h : tokens.length using Nat.strong_induction_on generalizing tokens with
  | _ n ih =>
    cases tokens with
    | nil => rw [program, List.nil_append, readSegments_nil eof]
    | cons t rest =>
      have shorter := length_behindSemicolon_lt t rest
      rw [readsFirst eof (t :: rest), readSegments_append eof,
        ih _ (h ▸ shorter) (behindSemicolon (t :: rest)) rfl]

end Reader

/-! ## Whole texts -/

/-- Reading a text with values passed over gives the statements and the mismatches of its
segments, in order. -/
theorem readProgram_segments (source : String) (file : FileId) (recovery : Recovery) :
    let read := readProgram source file recovery
    let cut := segments (tokenize source file).1.toList
    read.1.statements.toList = (cut.flatMap fun segment => (readSegment recovery segment).1) ∧
      read.2.diagnostics.toList = cut.flatMap fun segment => (readSegment recovery segment).2 := by
  obtain ⟨tokens, last, text⟩ := readWith_follows Rule.skip_follows source file recovery
  have whole := Reader.program_eq_readSegments recovery text.last_kind tokens
  rw [← text.tokens_eq] at whole
  have statements := text.statements_eq
  have mismatches := text.diagnostics_eq
  rw [whole] at statements mismatches
  exact ⟨statements, mismatches⟩

end Monkey
