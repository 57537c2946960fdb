import Mathlib.Data.List.DropRight
import Monkey.Proofs.Source.Cut
import Monkey.Proofs.Source.Lines

/-! # Lines and pieces

A text that is cut at its line feeds falls into pieces, one more than there are line feeds. Main
statement: a file has a line for each piece and no other, and the line is the piece without the
carriage returns at its end. -/

namespace Monkey

open String (utf8Len)

/-! ## Cutting at line feeds -/

theorem length_splitOn_eq_count (text : List Char) :
    (text.splitOn '\n').length = text.count '\n' + 1 := by
  induction text with
  | nil => rfl
  | cons c text ih =>
    rw [List.splitOn_cons_eq_if_modifyHead, List.count_cons]
    split
    · rw [List.length_cons, ih]
    · rw [List.length_modifyHead, ih, Nat.add_zero]

/-- A text without a line feed is one piece. -/
theorem isLine_of_free {text piece : List Char} (free : '\n' ∉ text) {i : Nat}
    (found : (text.splitOn '\n')[i]? = some piece) : i = 0 ∧ piece = text ∧ IsLine [] text [] := by
  rw [List.splitOn_eq_singleton free, List.getElem?_singleton] at found
  obtain ⟨first, same⟩ := Option.ite_none_right_eq_some.mp found
  exact ⟨first, (Option.some.inj same).symm, .inl rfl, free, .inl rfl⟩

/-- A piece is a line, and as many line feeds stand before it as pieces. -/
theorem exists_isLine_of_piece {text piece : List Char} {i : Nat}
    (found : (text.splitOn '\n')[i]? = some piece) :
    ∃ front behind, IsLine front piece behind ∧ text = front ++ piece ++ behind ∧
      front.count '\n' = i := by
  induction text using cut_induction (· == '\n') generalizing i with
  | nil =>
    obtain ⟨rfl, rfl, isLine⟩ := isLine_of_free List.not_mem_nil found
    exact ⟨[], [], isLine, rfl, rfl⟩
  | last body free =>
    obtain ⟨rfl, rfl, isLine⟩ := isLine_of_free (fun mem => by simpa using free _ mem) found
    exact ⟨[], [], isLine, (List.append_nil _).symm, rfl⟩
  | mark body x rest free isMark ih =>
    have free : '\n' ∉ body := fun mem => by simpa using free _ mem
    obtain rfl : x = '\n' := beq_iff_eq.mp isMark
    rw [List.splitOn_append_cons_self_of_not_mem free] at found
    cases i with
    | zero =>
      obtain rfl : body = piece := Option.some.inj found
      exact ⟨[], '\n' :: rest, ⟨.inl rfl, free, .inr ⟨rest, rfl⟩⟩, rfl, rfl⟩
    | succ i =>
      -- The piece is one of those behind the first line feed.
      obtain ⟨front, behind, isLine, rfl, count⟩ := ih found
      refine ⟨body ++ '\n' :: front, behind, ⟨.inr ?_, isLine.free, isLine.closes⟩, by simp, ?_⟩
      · rcases isLine.opens with rfl | ⟨earlier, rfl⟩
        · exact ⟨body, rfl⟩
        · exact ⟨body ++ '\n' :: earlier, by simp⟩
      · rw [List.count_append, List.count_eq_zero.mpr free, List.count_cons_self, count,
          Nat.zero_add]

/-- Behind a line feed at the end stands an empty piece. -/
theorem splitOn_append_newline (text : List Char) :
    (text ++ ['\n']).splitOn '\n' = text.splitOn '\n' ++ [[]] := by
  rw [List.splitOn_append_cons_self, List.splitOn_nil]

namespace SourceFile

/-- What is trimmed off the end of a text are carriage returns, and none is left there. -/
theorem exists_returns (text : List Char) :
    ∃ k, text = (trimReturns (String.ofList text)).toList ++ List.replicate k '\r' ∧
      (trimReturns (String.ofList text)).toList.getLast? ≠ some '\r' := by
  have trimmed : (trimReturns (String.ofList text)).toList = text.rdropWhile (· = '\r') := by
    rw [trimReturns, String.toList_ofList, String.toList_ofList, List.rdropWhile]
  rw [trimmed]
  refine ⟨(text.rtakeWhile (· = '\r')).length, ?_, ?_⟩
  · have returns : ∀ c ∈ text.rtakeWhile (· = '\r'), c = '\r' := by
      intro c mem
      simpa using List.mem_rtakeWhile_imp mem
    rw [← List.eq_replicate_iff.mpr ⟨rfl, returns⟩]
    exact List.rdropWhile_append_rtakeWhile.symm
  · intro last
    have nonempty : text.rdropWhile (· = '\r') ≠ [] := fun none => by simp [none] at last
    have other := List.rdropWhile_last_not (· = '\r') text nonempty
    rw [List.getLast?_eq_some_getLast nonempty] at last
    exact other (by simpa using last)

variable (file : SourceFile)

theorem lineRange?_eq_none_iff (n : Nat) :
    file.lineRange? n = none ↔ n = 0 ∨ (file.source.toList.splitOn '\n').length < n := by
  have size : file.lineStarts.size = (file.source.toList.splitOn '\n').length := by
    rw [file.lineStarts_eq, ← Array.length_toList, lineStartsOf_eq, List.length_cons,
      length_laterStarts, length_splitOn_eq_count]
  cases n with
  | zero => simp [lineRange?]
  | succ i =>
    have missing : file.lineRange? (i + 1) = none ↔ file.lineStarts[i]? = none := by
      cases start : file.lineStarts[i]? with
      | none => simp [lineRange?, start]
      | some start' =>
        simp only [lineRange?, start, reduceCtorEq, iff_false]
        split <;> simp
    rw [missing, Array.getElem?_eq_none_iff, size]
    omega

theorem line?_eq_none_iff (n : Nat) :
    file.line? n = none ↔ n = 0 ∨ (file.source.toList.splitOn '\n').length < n := by
  rw [line?, Option.map_eq_none_iff, lineRange?_eq_none_iff]

variable {file}

theorem line?_of_piece {piece : List Char} {i : Nat}
    (found : (file.source.toList.splitOn '\n')[i]? = some piece) :
    file.line? (i + 1) = some (trimReturns (String.ofList piece)) := by
  obtain ⟨front, behind, isLine, split, rfl⟩ := exists_isLine_of_piece found
  exact line?_of_isLine isLine split

/-- The bytes of a line are those of some characters of the text. -/
theorem exists_split_of_lineRange? {n start stop : Nat}
    (range : file.lineRange? n = some (start, stop)) :
    ∃ front piece behind, file.source.toList = front ++ piece ++ behind ∧
      start = utf8Len front ∧ stop = utf8Len (front ++ piece) := by
  have present : ¬ (n = 0 ∨ (file.source.toList.splitOn '\n').length < n) := by
    rw [← lineRange?_eq_none_iff, range]
    simp
  obtain ⟨i, rfl⟩ := Nat.exists_eq_succ_of_ne_zero fun zero => present (.inl zero)
  have lt : i < (file.source.toList.splitOn '\n').length := by omega
  obtain ⟨front, behind, isLine, split, rfl⟩ := exists_isLine_of_piece (List.getElem?_eq_getElem lt)
  rw [lineRange?_of_isLine isLine split] at range
  obtain ⟨rfl, rfl⟩ := Prod.mk.inj (Option.some.inj range)
  exact ⟨front, _, behind, split, rfl, (String.utf8Len_append ..).symm⟩

/-- A line has no characters but those of the text. -/
theorem subset_of_line? {n : Nat} {line : String} (found : file.line? n = some line) :
    line.toList ⊆ file.source.toList := by
  obtain ⟨⟨start, stop⟩, range, rfl⟩ := Option.map_eq_some_iff.mp found
  obtain ⟨front, piece, behind, split, rfl, rfl⟩ := exists_split_of_lineRange? range
  have extract := String.extract_of_valid front piece behind
  rw [← split, String.ofList_toList] at extract
  obtain ⟨k, whole, _⟩ := exists_returns piece
  rw [split]
  dsimp only
  rw [String.utf8Len_append, extract]
  have trimmed : (trimReturns (String.ofList piece)).toList ⊆ piece := by
    nth_rewrite 2 [whole]
    exact List.subset_append_left _ _
  exact fun c mem => List.mem_append_left _ (List.mem_append_right _ (trimmed mem))

theorem isValid_of_lineRange? {n start stop : Nat}
    (range : file.lineRange? n = some (start, stop)) :
    start ≤ stop ∧ stop ≤ file.source.utf8ByteSize ∧
      String.Pos.Raw.IsValid file.source ⟨start⟩ ∧ String.Pos.Raw.IsValid file.source ⟨stop⟩ := by
  obtain ⟨front, piece, behind, split, rfl, rfl⟩ := exists_split_of_lineRange? range
  have size : file.source.utf8ByteSize = utf8Len (front ++ piece) + utf8Len behind := by
    rw [← String.utf8Len_append, ← split]
    exact (String.utf8Len_toList ..).symm
  refine ⟨?_, ?_, isValid_utf8Len (split.trans (List.append_assoc ..)), isValid_utf8Len split⟩
  · rw [String.utf8Len_append]
    exact Nat.le_add_right _ _
  · rw [size]
    exact Nat.le_add_right _ _

/-- A text that ends with a line feed has an empty line behind it. -/
theorem line?_behind_newline (ends : file.source.toList.getLast? = some '\n') :
    (file.source.toList.splitOn '\n').getLast? = some [] ∧
      file.line? (file.source.toList.splitOn '\n').length = some "" := by
  obtain ⟨text, split⟩ := List.getLast?_eq_some_iff.mp ends
  have pieces : file.source.toList.splitOn '\n' = text.splitOn '\n' ++ [[]] := by
    rw [split, splitOn_append_newline]
  have last : (file.source.toList.splitOn '\n')[(text.splitOn '\n').length]? = some [] := by
    rw [pieces, List.getElem?_append_right le_rfl, Nat.sub_self]
    rfl
  have line := line?_of_piece last
  rw [pieces, List.length_append]
  exact ⟨List.getLast?_append_of_ne_nil _ (List.cons_ne_nil _ _), line⟩

/-- The lines of a file are the pieces of its text between line feeds, without the carriage
returns at the end of each. -/
theorem lines_are_pieces (name source : String) (n : Nat) :
    let file := SourceFile.ofText name source
    let pieces := source.toList.splitOn '\n'
    1 ≤ pieces.length ∧
    (file.line? n = none ↔ n = 0 ∨ pieces.length < n) ∧
    (∀ i piece, pieces[i]? = some piece → ∃ line k, file.line? (i + 1) = some line ∧
      piece = line.toList ++ List.replicate k '\r' ∧ line.toList.getLast? ≠ some '\r') ∧
    (∀ start stop, file.lineRange? n = some (start, stop) →
      start ≤ stop ∧ stop ≤ source.utf8ByteSize ∧
        String.Pos.Raw.IsValid source ⟨start⟩ ∧ String.Pos.Raw.IsValid source ⟨stop⟩) ∧
    (source.toList.getLast? = some '\n' →
      pieces.getLast? = some [] ∧ file.line? pieces.length = some "") ∧
    (source = "" → pieces = [[]]) := by
  intro file pieces
  refine ⟨List.length_pos_iff.mpr (List.splitOn_ne_nil _ _), file.line?_eq_none_iff n, ?_,
    fun _ _ range => isValid_of_lineRange? range, @line?_behind_newline file, ?_⟩
  · intro i piece found
    obtain ⟨k, returns, noMore⟩ := exists_returns piece
    exact ⟨_, k, line?_of_piece found, returns, noMore⟩
  · rintro rfl
    exact List.splitOn_nil _

/-- Of the returns before a line feed none is left, but one inside the line is kept. -/
theorem lines_are_pieces_returns :
    let source := "a\r\r\n\n\rλ\n"
    let file := SourceFile.ofText "main.mk" source
    (source.toList.splitOn '\n')[2]? = some ['\r', 'λ'] ∧
      (∃ line k, file.line? 3 = some line ∧
        ['\r', 'λ'] = line.toList ++ List.replicate k '\r' ∧
        line.toList.getLast? ≠ some '\r') ∧
      file.lineRange? 3 = some (5, 8) ∧ String.Pos.Raw.IsValid source ⟨8⟩ ∧
      source.toList.getLast? = some '\n' ∧ file.line? 4 = some "" := by
  intro source file
  obtain ⟨_, _, lines, valid, behind, _⟩ := lines_are_pieces "main.mk" source 3
  have found : (source.toList.splitOn '\n')[2]? = some ['\r', 'λ'] := by decide +kernel
  have range : file.lineRange? 3 = some (5, 8) := by decide +kernel
  have ends : source.toList.getLast? = some '\n' := by decide +kernel
  have last := (behind ends).2
  rw [show (source.toList.splitOn '\n').length = 4 by decide +kernel] at last
  exact ⟨found, lines 2 _ found, range, (valid 5 8 range).2.2.2, ends, last⟩

end SourceFile

end Monkey
