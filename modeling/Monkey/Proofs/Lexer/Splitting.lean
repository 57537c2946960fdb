import Monkey.Proofs.Lexer.Relocation
import Monkey.Proofs.Lexer.Tiling

/-! # Splitting a text

A text is split in two between characters, and each part is read as a text of its own. Main
statement: together they give the tokens of the whole text exactly where the split goes through
none of them. -/

namespace Monkey

open String (utf8Len)

/-- The offset lies inside no token: none begins before it and ends behind it. -/
def CutsNone (tokens : List Token) (offset : Nat) : Prop :=
  ∀ t ∈ tokens, ¬ (t.span.start.offset < offset ∧ offset < t.span.stop.offset)

instance (tokens : List Token) (offset : Nat) : Decidable (CutsNone tokens offset) :=
  inferInstanceAs (Decidable (∀ t ∈ tokens, _))

/-! ## Splitting a scan -/

/-- Where a list in three parts is split in two: in the first part, inside the second one, or in
the third. -/
theorem append_append_cases {α : Type} {front behind gap text rest : List α}
    (whole : front ++ behind = gap ++ text ++ rest) :
    (∃ left, gap = front ++ left ∧ behind = left ++ text ++ rest) ∨
    (∃ before after, before ≠ [] ∧ after ≠ [] ∧ text = before ++ after ∧
      front = gap ++ before) ∨
    ∃ more, front = gap ++ text ++ more ∧ rest = more ++ behind := by
  rw [List.append_assoc] at whole
  rcases List.append_eq_append_iff.mp whole with ⟨left, rfl, rfl⟩ | ⟨before, rfl, same⟩
  · exact .inl ⟨left, rfl, by rw [List.append_assoc]⟩
  · rcases List.append_eq_append_iff.mp same with ⟨more, rfl, rfl⟩ | ⟨after, rfl, rfl⟩
    · exact .inr (.inr ⟨more, by rw [List.append_assoc], rfl⟩)
    · by_cases atStart : before = []
      · exact .inl ⟨[], by simp [atStart], by simp [atStart]⟩
      · by_cases atEnd : after = []
        · exact .inr (.inr ⟨[], by simp [atEnd], by simp [atEnd]⟩)
        · exact .inr (.inl ⟨before, after, atStart, atEnd, rfl, rfl⟩)

namespace Scan

variable {file : FileId} {passed rest : List Char} {tokens : List Token}

/-- A text has one scan. -/
theorem unique {others : List Token} (scan : Scan file passed rest tokens)
    (other : Scan file passed rest others) : tokens = others := by
  let lexer : Lexer := ⟨.between passed rest, file, #[]⟩
  have same : lexer.stream = tokens := scan.stream_eq rfl rfl
  exact same.symm.trans (other.stream_eq rfl rfl)

/-- A scan is split where no token is cut, and its first part ends there. -/
theorem split {front behind : List Char} (scan : Scan file passed (front ++ behind) tokens)
    (clear : CutsNone tokens (utf8Len (passed ++ front))) :
    ∃ init others, tokens = init ++ others ∧
      Scan file passed front (init ++ [.endBehind (passed ++ front) file]) ∧
      Scan file (passed ++ front) behind others := by
  generalize whole : front ++ behind = rest at scan
  induction scan generalizing front with
  | @finish passed gap blank =>
    subst whole
    refine ⟨[], _, rfl, .finish fun c mem => blank c (List.mem_append_left _ mem), ?_⟩
    rw [← List.append_assoc]
    exact .finish fun c mem => blank c (List.mem_append_right _ mem)
  | @token passed gap rest l tokens blank lexeme stops scan ih =>
    rcases append_append_cases whole with
      ⟨left, rfl, rfl⟩ | ⟨before, after, some, someMore, text, rfl⟩ | ⟨more, rfl, rfl⟩
    · refine ⟨[], _, rfl, .finish fun c mem => blank c (List.mem_append_left _ mem), ?_⟩
      rw [← List.append_assoc] at scan ⊢
      exact .token (fun c mem => blank c (List.mem_append_right _ mem)) lexeme stops scan
    · -- The split goes through the lexeme, so its token is cut.
      refine absurd ?_ (clear _ List.mem_cons_self)
      rw [Lexeme.start_tokenBehind, Lexeme.stop_tokenBehind, text]
      obtain ⟨c, cs, rfl⟩ := List.exists_cons_of_ne_nil some
      obtain ⟨d, ds, rfl⟩ := List.exists_cons_of_ne_nil someMore
      have first := c.utf8Size_pos
      have second := d.utf8Size_pos
      simp only [String.utf8Len_append, String.utf8Len_cons]
      omega
    · have clear' : CutsNone tokens (utf8Len (passed ++ gap ++ l.text ++ more)) := by
        intro t mem
        simpa only [List.append_assoc] using clear t (List.mem_cons_of_mem _ mem)
      obtain ⟨init, others, rfl, head, tail⟩ := ih clear' rfl
      have stops' : l.StopsAt more := by
        intro c isHead
        exact stops c (List.mem_head?_append_of_mem_head? isHead)
      refine ⟨_ :: init, others, rfl, ?_, ?_⟩
      · simpa only [List.append_assoc, List.cons_append] using Scan.token blank lexeme stops' head
      · simpa only [List.append_assoc] using tail

theorem start_le_stop (scan : Scan file passed rest tokens) {t : Token} (mem : t ∈ tokens) :
    t.span.start.offset ≤ t.span.stop.offset := by
  obtain ⟨before, _, _, same, _⟩ := scan.exists_split t mem
  rw [same, Lexeme.start_tokenBehind, Lexeme.stop_tokenBehind,
    String.utf8Len_append (passed ++ before)]
  exact Nat.le_add_right _ _

/-- No token goes beyond the end of the text. -/
theorem stop_le (scan : Scan file passed rest tokens) {t : Token} (mem : t ∈ tokens) :
    t.span.stop.offset ≤ utf8Len (passed ++ rest) := by
  obtain ⟨before, after, split, same, _⟩ := scan.exists_split t mem
  have stop : t.span.stop.offset = utf8Len (passed ++ before ++ t.lexeme.text) :=
    (congrArg (·.span.stop.offset) same).trans (Lexeme.stop_tokenBehind ..)
  have whole : passed ++ rest = passed ++ before ++ t.lexeme.text ++ after := by
    rw [split]
    simp only [List.append_assoc]
  rw [stop, whole, String.utf8Len_append _ after]
  exact Nat.le_add_right _ _

/-- No token is cut where one of them begins or ends. -/
theorem cutsNone_ends (scan : Scan file passed rest tokens) {t : Token} (mem : t ∈ tokens) :
    CutsNone tokens t.span.start.offset ∧ CutsNone tokens t.span.stop.offset := by
  have width := scan.start_le_stop mem
  obtain ⟨early, late, rfl⟩ := List.append_of_mem mem
  obtain ⟨_, from_t, across⟩ := List.pairwise_append.mp scan.ordered
  obtain ⟨behind, _⟩ := List.pairwise_cons.mp from_t
  have apart : ∀ u ∈ early ++ t :: late, u = t ∨ u.span.stop.offset ≤ t.span.start.offset ∨
      t.span.stop.offset ≤ u.span.start.offset := by
    intro u other
    rcases List.mem_append.mp other with before | rest
    · exact .inr (.inl (across u before t List.mem_cons_self))
    · rcases List.mem_cons.mp rest with same | later
      · exact .inl same
      · exact .inr (.inr (behind u later))
  refine ⟨fun u other => ?_, fun u other => ?_⟩ <;>
    rcases apart u other with rfl | before | after <;> omega

end Scan

/-! ## Splitting a text -/

section

variable {source : String} {file : FileId} {before after : List Char}

/-- Without the end of a text there are the tokens before it. -/
theorem filter_not_isEof {init : List Token} {last : Token}
    (all : (tokenize source file).1.toList = init ++ [last]) :
    (tokenize source file).1.toList.filter (!·.isEof) = init := by
  have stream : (Lexer.ofText source file).stream = init ++ [last] := all
  obtain ⟨kinds, eof⟩ := Lexer.kinds_of_stream_eq stream
  have kept : init.filter (!·.isEof) = init := by
    refine List.filter_eq_self.mpr fun t mem => ?_
    simpa [Token.isEof] using kinds t mem
  rw [all, List.filter_append, kept]
  simp [Token.isEof, eof]

/-- What stands behind a place is read as if nothing stood before it. -/
theorem scan_behind (file : FileId) (before after : List Char) :
    Scan file before after ((tokenize (String.ofList after) file).1.toList.map
      (Token.relocate (Span.shift (Position.first.afterText before)))) := by
  have scan := (scan_tokenize (String.ofList after) file).shifted before
  rwa [List.append_nil, String.toList_ofList] at scan

/-- Where no token is cut, the tokens of the parts are those of the whole. -/
theorem tokenize_of_cutsNone (split : source.toList = before ++ after)
    (clear : CutsNone (tokenize source file).1.toList (utf8Len before)) :
    (tokenize source file).1.toList =
      (tokenize (String.ofList before) file).1.toList.filter (!·.isEof) ++
        (tokenize (String.ofList after) file).1.toList.map
          (Token.relocate (Span.shift (Position.first.afterText before))) := by
  have scan := scan_tokenize source file
  rw [split] at scan
  obtain ⟨init, others, same, head, tail⟩ := scan.split clear
  rw [← String.toList_ofList (l := before), scan_tokenize_iff] at head
  rw [filter_not_isEof head, same, tail.unique (scan_behind file before after)]

/-- The tokens of a text begin before its end. -/
theorem start_lt_utf8Len {t : Token}
    (mem : t ∈ (tokenize (String.ofList before) file).1.toList.filter (!·.isEof)) :
    t.span.start.offset < utf8Len before := by
  have scan := scan_tokenize (String.ofList before) file
  obtain ⟨init, all, _⟩ := scan.exists_init
  rw [filter_not_isEof all] at mem
  have starts := scan.starts_increase
  rw [all] at starts
  have less := (List.pairwise_append.mp starts).2.2 t mem _ (List.mem_singleton_self _)
  rwa [Token.endBehind_eq, Lexeme.start_tokenBehind, List.nil_append, String.toList_ofList] at less

/-- Behind a text all tokens begin at its end or later. -/
theorem utf8Len_le_start {others : List Token} {t : Token}
    (mem : t ∈ others.map (Token.relocate (Span.shift (Position.first.afterText before)))) :
    utf8Len before ≤ t.span.start.offset := by
  obtain ⟨u, _, rfl⟩ := List.mem_map.mp mem
  have start : (u.relocate (Span.shift (Position.first.afterText before))).span.start.offset =
      u.span.start.offset + (Position.first.afterText before).offset := rfl
  rw [start, Position.afterText_offset, ← Nat.add_assoc]
  exact Nat.le_add_left _ _

/-- The tokens of the parts are those of the whole only where no token is cut. -/
theorem cutsNone_of_tokenize_eq
    (whole : (tokenize source file).1.toList =
      (tokenize (String.ofList before) file).1.toList.filter (!·.isEof) ++
        (tokenize (String.ofList after) file).1.toList.map
          (Token.relocate (Span.shift (Position.first.afterText before)))) :
    CutsNone (tokenize source file).1.toList (utf8Len before) := by
  rw [whole]
  rintro t mem ⟨starts, stops⟩
  rcases List.mem_append.mp mem with early | late
  · have own := (List.mem_filter.mp early).1
    have stop := (scan_tokenize (String.ofList before) file).stop_le own
    rw [List.nil_append, String.toList_ofList] at stop
    exact Nat.not_lt.mpr stop stops
  · exact Nat.not_lt.mpr (utf8Len_le_start late) starts

/-- The position behind the first part of a text, by its byte offset. -/
theorem afterText_first_eq (split : source.toList = before ++ after) :
    Position.first.afterText before =
      ⟨lineAt source (utf8Len before), columnAt source (utf8Len before), utf8Len before⟩ := by
  have line : (Position.first.afterText before).line = 1 + before.count '\n' :=
    Position.afterText_line .first before
  have column := Position.afterText_first_column before
  have offset : (Position.first.afterText before).offset = utf8Len before := by
    rw [Position.afterText_offset]
    exact Nat.zero_add _
  rw [lineAt, columnAt, charsBefore_utf8Len split, ← line, ← column, ← offset]

/-- The parts of a text on both sides of a byte offset between two characters. -/
theorem exists_parts {offset : Nat} (boundary : String.Pos.Raw.IsValid source ⟨offset⟩) :
    ∃ before after, source.toList = before ++ after ∧ offset = utf8Len before ∧
      String.Pos.Raw.extract source ⟨0⟩ ⟨offset⟩ = String.ofList before ∧
      String.Pos.Raw.extract source ⟨offset⟩ source.rawEndPos = String.ofList after := by
  obtain ⟨n, place⟩ := String.Pos.Raw.isValid_iff_exists_take_toList.mp boundary
  rw [String.utf8ByteSize_ofList] at place
  have split : source.toList = source.toList.take n ++ source.toList.drop n :=
    (List.take_append_drop n _).symm
  generalize source.toList.take n = before at place split
  generalize source.toList.drop n = after at split
  obtain rfl : offset = utf8Len before := place
  refine ⟨before, after, split, rfl, ?_, ?_⟩
  · apply String.toList_inj.mp
    rw [String.toList_ofList]
    exact charsBefore_utf8Len split
  · have extract := String.extract_of_valid before after []
    rw [List.append_nil, ← split, String.ofList_toList, ← String.utf8Len_append, ← split,
      String.utf8Len_toList] at extract
    exact extract

end

/-- A text is split at a byte offset between two characters, and each part is read as a text of
its own, the second at places counted on from the offset. The tokens of the two parts without the
end of the first are the tokens of the whole exactly where the offset lies inside none of those.
Then the illegal characters are told of in the same way, and the second part gives the tokens of
the whole that begin at the offset or behind it. All tokens begin and end at such offsets. -/
theorem tokenize_split_iff (source : String) (file : FileId) {offset : Nat}
    (boundary : String.Pos.Raw.IsValid source ⟨offset⟩) :
    let tokens := fun text => (tokenize text file).1.toList
    let diagnostics := fun text => (tokenize text file).2.toList
    let front := String.Pos.Raw.extract source ⟨0⟩ ⟨offset⟩
    let behind := String.Pos.Raw.extract source ⟨offset⟩ source.rawEndPos
    let shift := Span.shift ⟨lineAt source offset, columnAt source offset, offset⟩
    (tokens source =
        (tokens front).filter (!·.isEof) ++ (tokens behind).map (Token.relocate shift) ↔
      CutsNone (tokens source) offset) ∧
    (CutsNone (tokens source) offset →
      diagnostics source =
          diagnostics front ++ (diagnostics behind).map (Diagnostic.relocate shift) ∧
        (tokens behind).map (Token.relocate shift) =
          (tokens source).filter (offset ≤ ·.span.start.offset)) ∧
    ∀ t ∈ tokens source, CutsNone (tokens source) t.span.start.offset ∧
      CutsNone (tokens source) t.span.stop.offset := by
  intro tokens diagnostics front behind shift
  obtain ⟨before, after, split, rfl, frontEq, behindEq⟩ := exists_parts boundary
  have origin := afterText_first_eq split
  simp only [tokens, diagnostics, front, behind, shift, frontEq, behindEq, ← origin]
  refine ⟨⟨cutsNone_of_tokenize_eq, tokenize_of_cutsNone split⟩, fun clear => ?_,
    fun t mem => (scan_tokenize source file).cutsNone_ends mem⟩
  have whole := tokenize_of_cutsNone split clear
  refine ⟨?_, ?_⟩
  · have kept : ∀ t : Token, (t.isIllegal && !t.isEof) = t.isIllegal := by
      intro t
      by_cases illegal : t.kind = .illegal <;> simp [Token.isIllegal, Token.isEof, illegal]
    simp only [diagnostics_tokenize_text, whole, List.filter_append, List.map_append,
      List.filter_filter, kept, List.filter_map, List.map_map]
    rfl
  · have early : ((tokenize (String.ofList before) file).1.toList.filter (!·.isEof)).filter
        (utf8Len before ≤ ·.span.start.offset) = [] := by
      refine List.filter_eq_nil_iff.mpr fun t mem => ?_
      simpa using start_lt_utf8Len mem
    rw [whole, List.filter_append, early, List.nil_append]
    refine (List.filter_eq_self.mpr fun t mem => ?_).symm
    simpa using utf8Len_le_start mem

/-- A split behind a character of two bytes in the second line, and one through an operator. -/
theorem tokenize_split_iff_second_line :
    let source := "let x\n  §==1"
    let tokens := fun text => (tokenize text 0).1.toList
    let diagnostics := fun text => (tokenize text 0).2.toList
    let part := String.Pos.Raw.extract source
    let shift := Span.shift ⟨lineAt source 10, columnAt source 10, 10⟩
    let origin := (lineAt source 10, columnAt source 10)
    String.Pos.Raw.IsValid source ⟨10⟩ ∧ CutsNone (tokens source) 10 ∧ origin = (2, 4) ∧
      part ⟨0⟩ ⟨10⟩ = "let x\n  §" ∧ part ⟨10⟩ source.rawEndPos = "==1" ∧
      tokens source = (tokens (part ⟨0⟩ ⟨10⟩)).filter (!·.isEof) ++
        (tokens (part ⟨10⟩ source.rawEndPos)).map (Token.relocate shift) ∧
      diagnostics source = diagnostics (part ⟨0⟩ ⟨10⟩) ++
        (diagnostics (part ⟨10⟩ source.rawEndPos)).map (Diagnostic.relocate shift) ∧
      (∃ t ∈ tokens source, t.span.stop.offset = 10 ∧ CutsNone (tokens source) 10) ∧
    String.Pos.Raw.IsValid source ⟨11⟩ ∧ ¬ CutsNone (tokens source) 11 ∧
      tokens source ≠ (tokens (part ⟨0⟩ ⟨11⟩)).filter (!·.isEof) ++
        (tokens (part ⟨11⟩ source.rawEndPos)).map
          (Token.relocate (Span.shift ⟨lineAt source 11, columnAt source 11, 11⟩)) := by
  intro source tokens diagnostics part shift origin
  have between : String.Pos.Raw.IsValid source ⟨10⟩ := by decide +kernel
  have clear : CutsNone (tokens source) 10 := by decide +kernel
  have through : String.Pos.Raw.IsValid source ⟨11⟩ := by decide +kernel
  have cut : ¬ CutsNone (tokens source) 11 := by decide +kernel
  have illegal : (⟨.illegal, "§", ⟨⟨2, 3, 8⟩, ⟨2, 4, 10⟩, 0⟩⟩ : Token) ∈ tokens source := by
    decide +kernel
  obtain ⟨whole, found, ends⟩ := tokenize_split_iff source 0 between
  exact ⟨between, clear, by decide +kernel, by decide +kernel, by decide +kernel, whole.mpr clear,
    (found clear).1, ⟨_, illegal, rfl, (ends _ illegal).2⟩, through, cut,
    fun same => cut ((tokenize_split_iff source 0 through).1.mp same)⟩

end Monkey
