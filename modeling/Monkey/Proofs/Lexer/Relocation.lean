import Monkey.Proofs.Lexer.Scan

/-! # Texts behind texts

A text that ends with a blank is scanned apart from what stands behind it, and behind another
text a text is scanned as if nothing stood before it: only the places of its tokens are counted
on from the end of that text. Behind whole lines they are moved by the number of those lines and
of their bytes. -/

namespace Monkey

open String (utf8Len)

/-! ## Tokens at other places -/

def Token.relocate (f : Span → Span) (t : Token) : Token := { t with span := f t.span }

def Label.relocate (f : Span → Span) (label : Label) : Label := { label with span := f label.span }

def Diagnostic.relocate (f : Span → Span) (d : Diagnostic) : Diagnostic :=
  { d with labels := d.labels.map (Label.relocate f) }

namespace Token

variable (f : Span → Span) (t : Token)

@[simp] theorem kind_relocate : (t.relocate f).kind = t.kind := rfl

@[simp] theorem literal_relocate : (t.relocate f).literal = t.literal := rfl

@[simp] theorem isIllegal_relocate : (t.relocate f).isIllegal = t.isIllegal := rfl

theorem illegalCharacter_relocate :
    (t.relocate f).illegalCharacter = t.illegalCharacter.relocate f := rfl

end Token

/-! ## Moving behind a text -/

namespace Position

/-- The place of a position when its text stands behind another one, which ends at the origin.
Only the first line is carried on, so only there the columns are moved. -/
def shift (p origin : Position) : Position :=
  ⟨p.line + (origin.line - 1),
    if p.line = 1 then p.column + (origin.column - 1) else p.column,
    p.offset + origin.offset⟩

theorem after_shift (origin : Position) {p : Position} (counted : 1 ≤ p.line) (c : Char) :
    (p.shift origin).after c = (p.after c).shift origin := by
  by_cases newline : c = '\n'
  · have later : p.line + 1 ≠ 1 := by omega
    simp only [after, shift, newline, if_true, later, if_false, Nat.add_right_comm]
  · by_cases first : p.line = 1 <;>
      simp only [after, shift, newline, first, if_true, if_false, Nat.add_right_comm]

theorem afterText_shift (origin : Position) {p : Position} (counted : 1 ≤ p.line)
    (text : List Char) : (p.shift origin).afterText text = (p.afterText text).shift origin := by
  induction text generalizing p with
  | nil => rfl
  | cons c text ih =>
    have counted' : 1 ≤ (p.after c).line := by
      rw [after_line]
      exact Nat.le_add_right_of_le counted
    rw [afterText_cons, afterText_cons, after_shift origin counted, ih counted']

/-- The positions of a text are counted on from the one that it starts at. -/
theorem first_afterText_append (front text : List Char) :
    first.afterText (front ++ text) = (first.afterText text).shift (first.afterText front) := by
  have line := afterText_line first front
  have column := afterText_first_column front
  have start : first.shift (first.afterText front) = first.afterText front := by
    generalize first.afterText front = origin at line column
    cases origin
    simp only [first] at line column
    simp only [shift, first, if_true, mk.injEq]
    omega
  rw [afterText_append, ← afterText_shift _ (Nat.le_refl 1), start]

end Position

/-- The span when its text stands behind another one, in the same file. -/
def Span.shift (origin : Position) (s : Span) : Span :=
  ⟨s.start.shift origin, s.stop.shift origin, s.file⟩

/-- The span in another file. -/
def Span.inFile (file : FileId) (s : Span) : Span := { s with file }

/-! ## Moving by whole lines -/

/-- The position some lines further down, with their bytes before it. -/
def Position.moved (lines bytes : Nat) (p : Position) : Position :=
  ⟨p.line + lines, p.column, p.offset + bytes⟩

/-- The span some lines further down, in the same file. -/
def Span.moved (lines bytes : Nat) (s : Span) : Span :=
  ⟨s.start.moved lines bytes, s.stop.moved lines bytes, s.file⟩

/-- A text of whole lines. -/
def EndsLine (text : List Char) : Prop := ∀ c ∈ text.getLast?, c = '\n'

namespace EndsLine

variable {front : List Char}

theorem append (line : List Char) : EndsLine (line ++ ['\n']) := by
  simp [EndsLine]

theorem lastLine_eq (h : EndsLine front) : lastLine front = [] := by
  induction front using List.reverseRecOn with
  | nil => rfl
  | append_singleton front c _ =>
    obtain rfl : c = '\n' := h c List.getLast?_concat
    simp [lastLine]

/-- Behind whole lines a line begins. -/
theorem afterText_first (h : EndsLine front) :
    Position.first.afterText front = Position.first.moved (front.count '\n') (utf8Len front) := by
  have line := Position.afterText_line .first front
  have column := Position.afterText_first_column front
  have offset := Position.afterText_offset .first front
  rw [h.lastLine_eq] at column
  cases place : Position.first.afterText front
  simp only [place] at line column offset
  simp [Position.moved, line, column, offset, Position.first]

/-- Behind whole lines no column is moved. -/
theorem shift_eq_moved (h : EndsLine front) :
    Span.shift (Position.first.afterText front) = Span.moved (front.count '\n') (utf8Len front) := by
  have place : ∀ p : Position, p.shift (Position.first.afterText front) =
      p.moved (front.count '\n') (utf8Len front) := by
    intro p
    rw [h.afterText_first]
    simp [Position.shift, Position.moved, Position.first]
  funext s
  rw [Span.shift, Span.moved, place, place]

end EndsLine

/-! ## Scans -/

namespace Scan

variable {file : FileId} {passed rest : List Char} {tokens : List Token}

theorem ne_nil (scan : Scan file passed rest tokens) : tokens ≠ [] := by
  cases scan <;> exact List.cons_ne_nil _ _

/-- Blanks in front change no token. -/
theorem behind_gap {gap : List Char} (blank : IsGap gap)
    (scan : Scan file (passed ++ gap) rest tokens) : Scan file passed (gap ++ rest) tokens := by
  have joined : ∀ {more}, IsGap more → IsGap (gap ++ more) :=
    fun blankMore c mem => (List.mem_append.mp mem).elim (blank c) (blankMore c)
  cases scan with
  | @finish _ more blankMore =>
    rw [List.append_assoc]
    exact .finish (joined blankMore)
  | @token _ more after l tokens blankMore lexeme stops scan =>
    have whole : gap ++ (more ++ l.text ++ after) = gap ++ more ++ l.text ++ after := by simp
    rw [List.append_assoc passed] at scan ⊢
    rw [whole]
    exact .token (joined blankMore) lexeme stops scan

/-- A text that ends with a blank, and what stands behind it: the tokens of the one up to its
end, and then those of the other. -/
theorem append (scan : Scan file passed rest tokens) (ends : ∀ c ∈ rest.getLast?, isBlank c = true)
    {behind : List Char} {others : List Token} (more : Scan file (passed ++ rest) behind others) :
    Scan file passed (rest ++ behind) (tokens.dropLast ++ others) := by
  induction scan with
  | finish blank => exact behind_gap blank more
  | @token passed gap rest l tokens blank lexeme stops scan ih =>
    have notEmpty : rest ≠ [] := by
      rintro rfl
      have isLast := List.getLast?_eq_some_getLast lexeme.text_ne_nil
      have solid := lexeme.isBlank_of_mem _ (List.mem_of_getLast? isLast)
      rw [List.append_nil] at ends
      rw [ends _ (by rw [List.getLast?_append, isLast]; rfl)] at solid
      cases solid
    have ends' : ∀ c ∈ rest.getLast?, isBlank c = true := by
      intro c isLast
      apply ends c
      rw [List.getLast?_append, isLast]
      rfl
    have stops' : l.StopsAt (rest ++ behind) := by
      intro c head
      rw [List.head?_append_of_ne_nil _ notEmpty] at head
      exact stops c head
    rw [List.dropLast_cons_of_ne_nil scan.ne_nil, List.cons_append,
      List.append_assoc (gap ++ l.text)]
    refine .token blank lexeme stops' (ih ends' ?_)
    simpa only [List.append_assoc] using more

/-- Behind a text the tokens are the same, at places counted on from the end of that text. -/
theorem shifted (scan : Scan file passed rest tokens) (front : List Char) :
    Scan file (front ++ passed) rest
      (tokens.map (Token.relocate (Span.shift (Position.first.afterText front)))) := by
  induction scan with
  | @finish passed gap blank =>
    have last : (Token.endBehind (passed ++ gap) file).relocate
        (Span.shift (Position.first.afterText front)) =
          .endBehind (front ++ passed ++ gap) file := by
      rw [List.append_assoc, Token.endBehind, Token.endBehind,
        Position.first_afterText_append front]
      rfl
    rw [List.map_singleton, last]
    exact .finish blank
  | @token passed gap rest l tokens blank lexeme stops scan ih =>
    have first : (l.tokenBehind (passed ++ gap) file).relocate
        (Span.shift (Position.first.afterText front)) =
          l.tokenBehind (front ++ passed ++ gap) file := by
      simp only [List.append_assoc, Lexeme.tokenBehind,
        Position.first_afterText_append front]
      rfl
    rw [List.map_cons, first]
    refine .token blank lexeme stops ?_
    simpa only [List.append_assoc] using ih

/-- Behind whole lines the tokens are the same, at places moved by those lines. -/
theorem moved (scan : Scan file passed rest tokens) {front : List Char} (ends : EndsLine front) :
    Scan file (front ++ passed) rest
      (tokens.map (Token.relocate (Span.moved (front.count '\n') (utf8Len front)))) := by
  rw [← ends.shift_eq_moved]
  exact scan.shifted front

end Scan

end Monkey
