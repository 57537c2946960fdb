import Monkey.Proofs.Lexer.Scan

/-! # Tokens tile the text

Tokens stand in the text that they were read from, one behind the other, with nothing
but blanks between them. Places are closed forms here: lines count line feeds, columns
the characters behind the last of them, offsets bytes. -/

namespace Monkey

open String (utf8Len)

/-! ## Bytes of a text -/

/-- The bytes of a text, one character after the other. -/
def bytesOf (text : List Char) : List UInt8 := text.flatMap String.utf8EncodeChar

theorem bytesOf_append (text more : List Char) :
    bytesOf (text ++ more) = bytesOf text ++ bytesOf more := List.flatMap_append

theorem length_bytesOf (text : List Char) : (bytesOf text).length = utf8Len text := by
  induction text with
  | nil => rfl
  | cons c text ih =>
    simp only [bytesOf, List.flatMap_cons, List.length_append, String.length_utf8EncodeChar] at ih ⊢
    rw [ih, String.utf8Len_cons, Nat.add_comm]

theorem toByteArray_eq (source : String) :
    source.toByteArray = (bytesOf source.toList).toByteArray :=
  String.utf8Encode_toList.symm

/-- The part of a text between two byte offsets, as bytes. -/
theorem extract_toByteArray {source : String} {before text after : List Char}
    (split : source.toList = before ++ text ++ after) :
    source.toByteArray.extract (utf8Len before) (utf8Len before + utf8Len text) =
      (String.ofList text).toByteArray := by
  have parts : source.toByteArray = (String.ofList before).toByteArray ++
      ((String.ofList text).toByteArray ++ (String.ofList after).toByteArray) := by
    rw [← String.ofList_toList (s := source), split]
    simp only [String.ofList_append, String.toByteArray_append, ByteArray.append_assoc]
  have size : ∀ cs : List Char, (String.ofList cs).toByteArray.size = utf8Len cs := fun cs => by
    rw [String.size_toByteArray, String.utf8ByteSize_ofList]
  rw [parts, ← size, ← size, ← Nat.add_zero (String.ofList before).toByteArray.size, Nat.add_assoc,
    ByteArray.extract_append_size_add, Nat.zero_add]
  exact ByteArray.extract_append_eq_left rfl

/-- A byte of the middle part of a text. -/
theorem getElem?_bytesOf_middle (before text after : List Char) {i : Nat}
    (lower : utf8Len before ≤ i) (upper : i < utf8Len (before ++ text)) :
    ∃ b ∈ bytesOf text, (bytesOf (before ++ text ++ after))[i]? = some b := by
  rw [String.utf8Len_append] at upper
  have inside : i - (bytesOf before).length < (bytesOf text).length := by
    rw [length_bytesOf, length_bytesOf]
    omega
  refine ⟨(bytesOf text)[i - (bytesOf before).length], List.getElem_mem _, ?_⟩
  rw [List.append_assoc, bytesOf_append, bytesOf_append,
    List.getElem?_append_right (by rw [length_bytesOf]; exact lower),
    List.getElem?_append_left inside, List.getElem?_eq_getElem inside]

/-- The bytes of blanks. -/
def blankBytes : List UInt8 := [0x20, 0x09, 0x0A, 0x0D]

theorem mem_blankBytes {gap : List Char} (blank : IsGap gap) :
    ∀ b ∈ bytesOf gap, b ∈ blankBytes := by
  intro b hb
  obtain ⟨c, hc, hb⟩ := List.mem_flatMap.mp hb
  have h := blank c hc
  simp only [isBlank, Bool.or_eq_true, beq_iff_eq] at h
  have all : (String.utf8EncodeChar c).all (blankBytes.contains ·) = true := by
    rcases h with ((rfl | rfl) | rfl) | rfl <;> decide
  simpa using List.all_eq_true.mp all b hb

/-! ## Places -/

/-- The characters before a byte offset. -/
def charsBefore (source : String) (offset : Nat) : List Char :=
  (String.Pos.Raw.extract source ⟨0⟩ ⟨offset⟩).toList

/-- The line of a byte offset. -/
def lineAt (source : String) (offset : Nat) : Nat := 1 + (charsBefore source offset).count '\n'

/-- The column of a byte offset, in characters. -/
def columnAt (source : String) (offset : Nat) : Nat :=
  1 + (lastLine (charsBefore source offset)).length

theorem charsBefore_utf8Len {source : String} {before after : List Char}
    (split : source.toList = before ++ after) :
    charsBefore source (utf8Len before) = before := by
  have extract := String.extract_of_valid [] before after
  rw [List.nil_append, ← split, String.ofList_toList, String.utf8Len_nil, Nat.zero_add] at extract
  rw [charsBefore, extract, String.toList_ofList]

/-! ## A token in its text -/

/-- A token that stands in a text: its span lies between two characters of the text and
cuts out its literal, and its lines and columns are those of its offsets. -/
structure Token.StandsIn (source : String) (file : FileId) (t : Token) : Prop where
  file_eq : t.span.file = file
  start_le_stop : t.span.start.offset ≤ t.span.stop.offset
  stop_le_size : t.span.stop.offset ≤ source.utf8ByteSize
  start_isValid : String.Pos.Raw.IsValid source ⟨t.span.start.offset⟩
  stop_isValid : String.Pos.Raw.IsValid source ⟨t.span.stop.offset⟩
  literal_eq :
    source.toByteArray.extract t.span.start.offset t.span.stop.offset = t.literal.toByteArray
  start_line : t.span.start.line = lineAt source t.span.start.offset
  stop_line : t.span.stop.line = lineAt source t.span.start.offset
  start_column : t.span.start.column = columnAt source t.span.start.offset
  stop_column : t.span.stop.column = columnAt source t.span.stop.offset
  width : t.span.stop.column = t.span.start.column + t.literal.length

/-- A lexeme without a line feed stands where it is in the text. -/
theorem Lexeme.standsIn_tokenBehind {source : String} {l : Lexeme} {before after : List Char}
    (split : source.toList = before ++ l.text ++ after) (oneLine : '\n' ∉ l.text)
    (file : FileId) : (l.tokenBehind before file).StandsIn source file := by
  have startOffset : (Position.first.afterText before).offset = utf8Len before := by
    simp [Position.afterText_offset, Position.first]
  have stopOffset :
      (Position.first.afterText (before ++ l.text)).offset = utf8Len (before ++ l.text) := by
    simp [Position.afterText_offset, Position.first]
  have start : charsBefore source (utf8Len before) = before := by
    apply charsBefore_utf8Len
    rw [split, List.append_assoc]
  have stop : charsBefore source (utf8Len (before ++ l.text)) = before ++ l.text :=
    charsBefore_utf8Len split
  refine ⟨rfl, ?_, ?_, ?_, ?_, ?_, ?_, ?_, ?_, ?_, ?_⟩ <;>
    simp only [tokenBehind, startOffset, stopOffset]
  · simp
  · rw [← String.utf8Len_toList, split]
    simp
  · apply isValid_utf8Len
    rw [split, List.append_assoc]
  · exact isValid_utf8Len split
  · rw [String.utf8Len_append]
    exact extract_toByteArray split
  · rw [lineAt, start, Position.afterText_line]
    rfl
  · rw [lineAt, start, Position.afterText_line, List.count_append, List.count_eq_zero.mpr oneLine]
    rfl
  · rw [columnAt, start, Position.afterText_first_column]
  · rw [columnAt, stop, Position.afterText_first_column]
  · rw [Position.afterText_first_column, Position.afterText_first_column,
      lastLine_append_of_not_mem before oneLine, List.length_append, String.length_ofList,
      Nat.add_assoc]

/-! ## The tokens of a scan -/

theorem Token.endBehind_eq (before : List Char) (file : FileId) :
    endBehind before file = Lexeme.tokenBehind ⟨.eof, []⟩ before file := by
  simp [endBehind, Lexeme.tokenBehind, Span.point]

theorem Lexeme.start_tokenBehind (l : Lexeme) (before : List Char) (file : FileId) :
    (l.tokenBehind before file).span.start.offset = utf8Len before := by
  simp [tokenBehind, Position.afterText_offset, Position.first]

theorem Lexeme.stop_tokenBehind (l : Lexeme) (before : List Char) (file : FileId) :
    (l.tokenBehind before file).span.stop.offset = utf8Len (before ++ l.text) := by
  simp [tokenBehind, Position.afterText_offset, Position.first]

namespace Scan

variable {file : FileId} {passed rest : List Char} {tokens : List Token}

/-- Each token of a scan stands somewhere in the rest of the text, as the token of the
lexeme there. -/
theorem exists_split (scan : Scan file passed rest tokens) :
    ∀ t ∈ tokens, ∃ between after, rest = between ++ t.lexeme.text ++ after ∧
      t = t.lexeme.tokenBehind (passed ++ between) file ∧
      (t.lexeme = ⟨.eof, []⟩ ∨ IsLexeme t.lexeme) := by
  induction scan with
  | @finish passed gap =>
    intro t ht
    obtain rfl := List.mem_singleton.mp ht
    rw [Token.endBehind_eq, Lexeme.lexeme_tokenBehind]
    exact ⟨gap, [], by simp, rfl, .inl rfl⟩
  | @token passed gap rest l tokens blank lexeme stops more ih =>
    intro t ht
    rcases List.mem_cons.mp ht with rfl | ht
    · rw [Lexeme.lexeme_tokenBehind]
      exact ⟨gap, rest, rfl, rfl, .inr lexeme⟩
    · obtain ⟨between, after, split, same, lexemes⟩ := ih t ht
      refine ⟨gap ++ l.text ++ between, after, ?_, ?_, lexemes⟩
      · simp [split]
      · simpa using same

theorem ordered (scan : Scan file passed rest tokens) :
    tokens.Pairwise fun a b => a.span.stop.offset ≤ b.span.start.offset := by
  induction scan with
  | finish => exact List.pairwise_singleton _ _
  | @token passed gap rest l tokens blank lexeme stops more ih =>
    refine List.pairwise_cons.mpr ⟨?_, ih⟩
    intro t ht
    obtain ⟨between, _, _, same, _⟩ := more.exists_split t ht
    rw [same, Lexeme.stop_tokenBehind, Lexeme.start_tokenBehind,
      String.utf8Len_append (passed ++ gap ++ l.text)]
    exact Nat.le_add_right _ _

/-- Each token starts before the next one, since each but the last takes up some text. -/
theorem starts_increase (scan : Scan file passed rest tokens) :
    tokens.Pairwise fun a b => a.span.start.offset < b.span.start.offset := by
  induction scan with
  | finish => exact List.pairwise_singleton _ _
  | @token passed gap rest l tokens blank lexeme stops more ih =>
    refine List.pairwise_cons.mpr ⟨?_, ih⟩
    intro t ht
    obtain ⟨between, _, _, same, _⟩ := more.exists_split t ht
    obtain ⟨c, cs, text⟩ := List.exists_cons_of_ne_nil lexeme.text_ne_nil
    have size := c.utf8Size_pos
    rw [same, Lexeme.start_tokenBehind, Lexeme.start_tokenBehind, text]
    simp only [String.utf8Len_append, String.utf8Len_cons]
    omega

/-- No token is found twice. -/
theorem nodup (scan : Scan file passed rest tokens) : tokens.Nodup := by
  refine scan.starts_increase.imp ?_
  rintro a b less rfl
  exact Nat.lt_irrefl _ less

/-- A byte of the rest of the text lies in a token or is the byte of a blank. -/
theorem covered (scan : Scan file passed rest tokens) {i : Nat} (lower : utf8Len passed ≤ i)
    (upper : i < utf8Len (passed ++ rest)) :
    (∃ t ∈ tokens, t.span.start.offset ≤ i ∧ i < t.span.stop.offset) ∨
      ∃ b ∈ blankBytes, (bytesOf (passed ++ rest))[i]? = some b := by
  induction scan with
  | @finish passed gap blank =>
    obtain ⟨b, hb, byte⟩ := getElem?_bytesOf_middle passed gap [] lower upper
    rw [List.append_nil] at byte
    exact .inr ⟨b, mem_blankBytes blank b hb, byte⟩
  | @token passed gap rest l tokens blank lexeme stops more ih =>
    by_cases inGap : i < utf8Len (passed ++ gap)
    · obtain ⟨b, hb, byte⟩ := getElem?_bytesOf_middle passed gap (l.text ++ rest) lower inGap
      simp only [List.append_assoc] at byte ⊢
      exact .inr ⟨b, mem_blankBytes blank b hb, byte⟩
    · by_cases inText : i < utf8Len (passed ++ gap ++ l.text)
      · refine .inl ⟨_, List.mem_cons_self, ?_⟩
        rw [Lexeme.start_tokenBehind, Lexeme.stop_tokenBehind]
        exact ⟨Nat.le_of_not_lt inGap, inText⟩
      · have upper' : i < utf8Len (passed ++ gap ++ l.text ++ rest) := by
          simpa only [List.append_assoc] using upper
        rcases ih (Nat.le_of_not_lt inText) upper' with ⟨t, ht, inside⟩ | ⟨b, hb, byte⟩
        · exact .inl ⟨t, List.mem_cons_of_mem _ ht, inside⟩
        · simp only [List.append_assoc] at byte ⊢
          exact .inr ⟨b, hb, byte⟩

end Scan

/-! ## Tilings -/

/-- The tokens of a text stand in it in order and without overlap, with only blanks
between them; each but the last takes up some text, and the last stands at the end. -/
structure Tiling (source : String) (file : FileId) (tokens : List Token) : Prop where
  stands : ∀ t ∈ tokens, t.StandsIn source file
  ordered : tokens.Pairwise fun a b => a.span.stop.offset ≤ b.span.start.offset
  blanks : ∀ (i : Nat) (h : i < source.toByteArray.size),
    (∀ t ∈ tokens, ¬ (t.span.start.offset ≤ i ∧ i < t.span.stop.offset)) →
      source.toByteArray[i] ∈ blankBytes
  literals : ∀ t ∈ tokens, t.kind ≠ .eof →
    t.literal ≠ "" ∧ ∀ c ∈ t.literal.toList, c ∉ [' ', '\t', '\n', '\r']
  finish : ∃ init last, tokens = init ++ [last] ∧ (∀ t ∈ init, t.kind ≠ .eof) ∧
    last.kind = .eof ∧ last.literal = "" ∧ last.span.start = last.span.stop ∧
    last.span.start.offset = source.utf8ByteSize

theorem tokenize_tiling (source : String) (file : FileId) :
    Tiling source file (tokenize source file).1.toList := by
  have scan := scan_tokenize source file
  refine ⟨?_, scan.ordered, ?_, ?_, ?_⟩
  · intro t ht
    obtain ⟨before, after, split, same, lexeme⟩ := scan.exists_split t ht
    rw [same]
    refine Lexeme.standsIn_tokenBehind split ?_ file
    rcases lexeme with eof | lexeme
    · simp [eof]
    · intro newline
      exact absurd (lexeme.isBlank_of_mem '\n' newline) (by decide)
  · intro i h outside
    have upper : i < utf8Len source.toList := by
      rwa [String.utf8Len_toList, ← String.size_toByteArray]
    rcases scan.covered (Nat.zero_le i) upper with ⟨t, ht, inside⟩ | ⟨b, hb, byte⟩
    · exact absurd inside (outside t ht)
    · obtain ⟨inBytes, rfl⟩ := List.getElem?_eq_some_iff.mp byte
      simpa [toByteArray_eq] using hb
  · intro t ht notEof
    obtain ⟨_, _, _, _, eof | lexeme⟩ := scan.exists_split t ht
    · exact absurd (congrArg Lexeme.kind eof) notEof
    · refine ⟨?_, ?_⟩
      · intro empty
        exact lexeme.text_ne_nil (by simp [Token.lexeme, empty])
      · intro c hc
        simpa [isBlank, and_assoc] using lexeme.isBlank_of_mem c hc
  · obtain ⟨init, same, lexemes⟩ := scan.exists_init
    refine ⟨init, _, same, fun t ht => (lexemes t ht).kind_ne_eof, rfl, rfl, rfl, ?_⟩
    rw [Token.endBehind_eq, Lexeme.start_tokenBehind, List.nil_append, String.utf8Len_toList]

end Monkey
