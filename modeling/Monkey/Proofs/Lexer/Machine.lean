import Monkey.Proofs.Lexer.Standing
import Monkey.Proofs.Lexer.Tiling

/-! # Counting in machine words

Lines and columns are counted in words of 32 bits, characters and bytes in words of 64, and a
literal is a slice of the text between two byte offsets. A sum that does not fit its word, or
a slice that cuts through a character, is a fault. Main statement: on a text of at most
`2 ^ 32 - 2` characters no token is read with a fault. -/

namespace Monkey

open String (utf8Len)

/-- Why a step of the machine is not made. -/
inductive Fault where
  | overflow
  | badSlice
deriving DecidableEq

/-- A sum in a word of the given number of bits. -/
def addInWord (bits a b : Nat) : Except Fault Nat :=
  if a + b < 2 ^ bits then .ok (a + b) else .error .overflow

/-- The part of a text between two byte offsets, which must not cut a character. -/
def slice (source : String) (start stop : Nat) : Except Fault String :=
  if start ≤ stop ∧ String.Pos.Raw.IsValid source ⟨start⟩ ∧
      String.Pos.Raw.IsValid source ⟨stop⟩ then
    .ok (String.Pos.Raw.extract source ⟨start⟩ ⟨stop⟩)
  else .error .badSlice

theorem addInWord_eq {bits a b : Nat} (h : a + b < 2 ^ bits) : addInWord bits a b = .ok (a + b) :=
  if_pos h

/-- The part of a text that a middle part of its characters takes up. -/
theorem slice_eq {source : String} {before text after : List Char}
    (split : source.toList = before ++ text ++ after) :
    slice source (utf8Len before) (utf8Len (before ++ text)) = .ok (String.ofList text) := by
  have start : String.Pos.Raw.IsValid source ⟨utf8Len before⟩ :=
    isValid_utf8Len (split.trans (List.append_assoc ..))
  have stop : String.Pos.Raw.IsValid source ⟨utf8Len (before ++ text)⟩ := isValid_utf8Len split
  have extract := String.extract_of_valid before text after
  rw [← split, String.ofList_toList, ← String.utf8Len_append] at extract
  rw [slice, if_pos ⟨by simp, start, stop⟩, extract]

/-- The same between the places before and behind that part. -/
theorem slice_afterText {source : String} {before text after : List Char}
    (split : source.toList = before ++ text ++ after) :
    slice source (Position.first.afterText before).offset
      (Position.first.afterText (before ++ text)).offset = .ok (String.ofList text) := by
  simp only [Position.afterText_offset, Position.first, Nat.zero_add]
  exact slice_eq split

/-! ## Positions -/

namespace Position

/-- The position behind a character, counted in words. -/
def afterInWords (p : Position) (c : Char) : Except Fault Position := do
  let offset ← addInWord 64 p.offset c.utf8Size
  if c = '\n' then
    let line ← addInWord 32 p.line 1
    return ⟨line, 1, offset⟩
  else
    let column ← addInWord 32 p.column 1
    return ⟨p.line, column, offset⟩

/-- The numbers of the position fit their words. -/
structure FitsWords (p : Position) : Prop where
  line : p.line < 2 ^ 32
  column : p.column < 2 ^ 32
  offset : p.offset < 2 ^ 64

theorem afterInWords_eq {p : Position} {c : Char} (fits : (p.after c).FitsWords) :
    p.afterInWords c = .ok (p.after c) := by
  have offset : p.offset + c.utf8Size < 2 ^ 64 := by
    simpa using fits.offset
  rw [afterInWords, addInWord_eq offset]
  by_cases newline : c = '\n'
  · have line := fits.line
    simp only [after, newline, if_true] at line ⊢
    rw [addInWord_eq line]
    rfl
  · have column := fits.column
    simp only [after, newline, if_false] at column ⊢
    rw [addInWord_eq column]
    rfl

/-- The number of characters whose places fit, however they are spread over lines. -/
def textLimit : Nat := 2 ^ 32 - 2

theorem utf8Len_le_four_mul_length (text : List Char) : utf8Len text ≤ 4 * text.length := by
  induction text with
  | nil => simp
  | cons c text ih =>
    have size := c.utf8Size_le_four
    rw [String.utf8Len_cons, List.length_cons]
    omega

theorem fitsWords_afterText {text : List Char} (short : text.length ≤ textLimit) :
    (first.afterText text).FitsWords := by
  have bytes := utf8Len_le_four_mul_length text
  have lineFeeds : text.count '\n' ≤ text.length := List.count_le_length
  have lastLine : (lastLine text).length ≤ text.length := by
    have shorter := (List.takeWhile_prefix (l := text.reverse) (· ≠ '\n')).length_le
    simpa only [Monkey.lastLine, List.length_reverse] using shorter
  unfold textLimit at short
  refine ⟨?_, ?_, ?_⟩
  · rw [afterText_line, first]
    dsimp only
    omega
  · rw [afterText_first_column]
    omega
  · rw [afterText_offset, first]
    dsimp only
    omega

end Position

/-! ## The cursor -/

namespace Cursor

/-- One step, counted in words. The index of the character behind is kept in a word too. -/
def advanceInWords (c : Cursor) : Except Fault Cursor := do
  let index ← addInWord 64 c.index 1
  let _ ← addInWord 64 index 1
  match c.rest with
  | [] => return { c with index }
  | ch :: rest =>
    let position ← c.position.afterInWords ch
    return ⟨rest, index, position⟩

/-- One step for each character of a text, counted in words. -/
def advanceOverInWords (c : Cursor) (text : List Char) : Except Fault Cursor :=
  text.foldlM (fun c _ => c.advanceInWords) c

theorem advanceInWords_between {passed rest : List Char} {c : Char}
    (short : (passed ++ [c]).length ≤ Position.textLimit) :
    (between passed (c :: rest)).advanceInWords = .ok (between (passed ++ [c]) rest) := by
  have fits := Position.fitsWords_afterText short
  rw [Position.afterText_append, Position.afterText_cons, Position.afterText_nil] at fits
  have position := Position.afterInWords_eq fits
  rw [List.length_append, List.length_singleton, Position.textLimit] at short
  have index : addInWord 64 passed.length 1 = .ok (passed.length + 1) := addInWord_eq (by omega)
  have nextIndex : addInWord 64 (passed.length + 1) 1 = .ok (passed.length + 2) :=
    addInWord_eq (by omega)
  simp only [advanceInWords, between, index, nextIndex, position, bind, Except.bind]
  rw [Position.afterText_append, List.length_append]
  rfl

theorem advanceOverInWords_between {passed text rest : List Char}
    (short : (passed ++ text).length ≤ Position.textLimit) :
    (between passed (text ++ rest)).advanceOverInWords text = .ok (between (passed ++ text) rest) := by
  induction text generalizing passed with
  | nil =>
    rw [List.append_nil]
    rfl
  | cons c text ih =>
    have split : passed ++ c :: text = passed ++ [c] ++ text := by simp
    rw [split] at short ⊢
    have step : (passed ++ [c]).length ≤ Position.textLimit :=
      Nat.le_trans (List.prefix_append _ text).length_le short
    rw [advanceOverInWords, List.cons_append, List.foldlM_cons, advanceInWords_between step]
    exact ih short

end Cursor

/-! ## Tokens -/

namespace Lexer

/-- Reads one token, counting in words and cutting its literal out of the text. -/
def nextInWords (source : String) (lexer : Lexer) : Except Fault (Token × Lexer) := do
  let start ← lexer.cursor.advanceOverInWords (lexer.cursor.rest.takeWhile isBlank)
  match start.rest with
  | [] => return (⟨.eof, "", .point start.position lexer.file⟩, { lexer with cursor := start })
  | c :: rest =>
    let lexeme := Lexeme.read c rest
    let stop ← start.advanceOverInWords lexeme.text
    let literal ← slice source start.position.offset stop.position.offset
    let token : Token := ⟨lexeme.kind, literal, ⟨start.position, stop.position, lexer.file⟩⟩
    return (token, { lexer with cursor := stop }.recording token)

/-- The lexer from which a number of tokens has been pulled, counting in words. -/
def pulledInWords (source : String) (lexer : Lexer) : Nat → Except Fault Lexer
  | 0 => return lexer
  | k + 1 => do
    let before ← lexer.pulledInWords source k
    let read ← before.nextInWords source
    return read.2

variable {lexer : Lexer} {source : String} {passed gap rest : List Char}

theorem blanksInWords_eq (h : lexer.cursor = .between passed (gap ++ rest)) (blank : IsGap gap)
    (stop : ∀ c ∈ rest.head?, isBlank c = false)
    (short : (passed ++ gap).length ≤ Position.textLimit) :
    lexer.cursor.advanceOverInWords (lexer.cursor.rest.takeWhile isBlank) =
      .ok (.between (passed ++ gap) rest) := by
  have taken : (gap ++ rest).takeWhile isBlank = gap := by
    rw [takeWhile_append_eq_self blank]
    simpa using stop
  rw [h, Cursor.between_rest, taken, Cursor.advanceOverInWords_between short]

theorem nextInWords_of_isGap (h : lexer.cursor = .between passed gap) (blank : IsGap gap)
    (short : (passed ++ gap).length ≤ Position.textLimit) :
    lexer.nextInWords source = .ok lexer.next := by
  have start : lexer.cursor.advanceOverInWords (lexer.cursor.rest.takeWhile isBlank) =
      .ok (.between (passed ++ gap) []) :=
    blanksInWords_eq (by simpa using h) blank (by simp) short
  rw [nextInWords, start, next_of_isGap h blank]
  rfl

theorem nextInWords_of_lexeme {l : Lexeme} (split : source.toList = passed ++ gap ++ l.text ++ rest)
    (h : lexer.cursor = .between passed (gap ++ l.text ++ rest)) (blank : IsGap gap)
    (lexeme : IsLexeme l) (stops : l.StopsAt rest)
    (short : (passed ++ gap ++ l.text).length ≤ Position.textLimit) :
    lexer.nextInWords source = .ok lexer.next := by
  obtain ⟨c, cs, text⟩ := List.exists_cons_of_ne_nil lexeme.text_ne_nil
  have start : lexer.cursor.advanceOverInWords (lexer.cursor.rest.takeWhile isBlank) =
      .ok (.between (passed ++ gap) (c :: (cs ++ rest))) := by
    refine blanksInWords_eq (by rw [h, text, List.append_assoc]; rfl) blank ?_ ?_
    · simpa using lexeme.isBlank_of_mem c (by simp [text])
    · exact Nat.le_trans (List.prefix_append _ l.text).length_le short
  have read : Lexeme.read c (cs ++ rest) = l := (Lexeme.read_eq_iff lexeme text rest).mpr stops
  have stop : (Cursor.between (passed ++ gap) (l.text ++ rest)).advanceOverInWords l.text =
      .ok (.between (passed ++ gap ++ l.text) rest) := Cursor.advanceOverInWords_between short
  rw [next_of_lexeme h blank lexeme stops, nextInWords, start]
  simp only [bind, Except.bind, Cursor.between_rest, read]
  rw [← List.cons_append, ← text, stop]
  dsimp only [Cursor.between]
  rw [slice_afterText split]
  rfl

/-- On a short text a token is read without a fault, and it is the one that unbounded numbers
give. -/
theorem StandsIn.nextInWords_eq {file : FileId} (h : lexer.StandsIn source.toList file)
    (short : source.length ≤ Position.textLimit) : lexer.nextInWords source = .ok lexer.next := by
  obtain ⟨passed, rest, split, cursor⟩ := h.split
  rw [← String.length_toList, split] at short
  rcases next_cases cursor with ⟨blank, _⟩ | ⟨gap, l, more, rfl, blank, lexeme, stops, _⟩
  · exact nextInWords_of_isGap cursor blank short
  · rw [← List.append_assoc, ← List.append_assoc] at split short
    refine nextInWords_of_lexeme split cursor blank lexeme stops ?_
    exact Nat.le_trans (List.prefix_append _ more).length_le short

/-- However many tokens are pulled, none is read with a fault. -/
theorem StandsIn.pulledInWords_eq {file : FileId} (h : lexer.StandsIn source.toList file)
    (short : source.length ≤ Position.textLimit) (k : Nat) :
    lexer.pulledInWords source k = .ok (lexer.pulled k) := by
  induction k with
  | zero => rfl
  | succ k ih =>
    rw [pulledInWords, ih]
    show (do let read ← (lexer.pulled k).nextInWords source; _) = _
    rw [(h.pulled k).nextInWords_eq short]
    rfl

end Lexer

end Monkey
