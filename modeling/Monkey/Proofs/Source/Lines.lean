import Mathlib.Data.List.TakeWhile
import Monkey.Proofs.Lexer.Place
import Monkey.Source.File

/-! # Lines of a file

A file finds its lines by byte offsets. Here a line is a part of the text between line
feeds, and the file is shown to give just that part. -/

namespace Monkey

open String (utf8Len)

/-! ## Where lines start -/

/-- The byte offsets behind the line feeds of a text that starts at an offset. -/
def laterStarts (offset : Nat) : List Char → List Nat
  | [] => []
  | c :: text =>
    if c = '\n' then (offset + c.utf8Size) :: laterStarts (offset + c.utf8Size) text
    else laterStarts (offset + c.utf8Size) text

theorem laterStarts_append (offset : Nat) (text more : List Char) :
    laterStarts offset (text ++ more) =
      laterStarts offset text ++ laterStarts (offset + utf8Len text) more := by
  induction text generalizing offset with
  | nil => rfl
  | cons c text ih =>
    have shift : offset + utf8Len (c :: text) = offset + c.utf8Size + utf8Len text := by
      rw [String.utf8Len_cons]
      omega
    simp only [List.cons_append, laterStarts, ih, shift]
    split <;> rfl

theorem length_laterStarts (offset : Nat) (text : List Char) :
    (laterStarts offset text).length = text.count '\n' := by
  induction text generalizing offset with
  | nil => rfl
  | cons c text ih =>
    simp only [laterStarts, List.count_cons, ← ih (offset + c.utf8Size)]
    split <;> simp_all

/-- The line starts and the offset behind one more character. -/
def lineStep (found : Array Nat × Nat) (c : Char) : Array Nat × Nat :=
  (if c = '\n' then found.1.push (found.2 + c.utf8Size) else found.1, found.2 + c.utf8Size)

theorem foldl_lineStep (text : List Char) (starts : Array Nat) (offset : Nat) :
    (text.foldl lineStep (starts, offset)).1.toList =
      starts.toList ++ laterStarts offset text := by
  induction text generalizing starts offset with
  | nil => simp [laterStarts]
  | cons c text ih =>
    rw [List.foldl_cons, lineStep, ih, laterStarts]
    split <;> simp

theorem lineStartsOf_eq (source : String) :
    (lineStartsOf source).toList = 0 :: laterStarts 0 source.toList :=
  foldl_lineStep source.toList #[0] 0

/-! ## A line between line feeds -/

/-- A part of a text that stands between line feeds, or between one and an end. -/
structure IsLine (front line behind : List Char) : Prop where
  opens : front = [] ∨ ∃ earlier, front = earlier ++ ['\n']
  free : '\n' ∉ line
  closes : behind = [] ∨ ∃ later, behind = '\n' :: later

theorem newline_notMem_takeWhile (text : List Char) : '\n' ∉ text.takeWhile (· ≠ '\n') := by
  intro mem
  simpa using List.mem_takeWhile_imp mem

theorem dropWhile_newline (text : List Char) :
    text.dropWhile (· ≠ '\n') = [] ∨ ∃ more, text.dropWhile (· ≠ '\n') = '\n' :: more := by
  cases rest : text.dropWhile (· ≠ '\n') with
  | nil => exact .inl rfl
  | cons c more =>
    have nonempty : text.dropWhile (· ≠ '\n') ≠ [] := rest ▸ List.cons_ne_nil c more
    have stops := List.head_dropWhile_not (· ≠ '\n') nonempty
    simp only [rest, List.head_cons, decide_eq_false_iff_not, not_not] at stops
    exact .inr ⟨more, by rw [stops]⟩

/-- A word without a line feed stands in the line that its surroundings make. -/
theorem exists_isLine (before after : List Char) {word : List Char} (free : '\n' ∉ word) :
    ∃ front behind, IsLine front (lastLine before ++ word ++ after.takeWhile (· ≠ '\n')) behind ∧
      before ++ word ++ after =
        front ++ (lastLine before ++ word ++ after.takeWhile (· ≠ '\n')) ++ behind ∧
      front.count '\n' = before.count '\n' := by
  let front := (before.reverse.dropWhile (· ≠ '\n')).reverse
  have split : before = front ++ lastLine before := by
    rw [lastLine, ← List.reverse_append, List.takeWhile_append_dropWhile, List.reverse_reverse]
  have lastFree : '\n' ∉ lastLine before :=
    fun mem => newline_notMem_takeWhile _ (List.mem_reverse.mp mem)
  refine ⟨front, after.dropWhile (· ≠ '\n'), ⟨?_, ?_, dropWhile_newline after⟩, ?_, ?_⟩
  · rcases dropWhile_newline before.reverse with none | ⟨more, some⟩
    · exact .inl (by simp only [front, none, List.reverse_nil])
    · exact .inr ⟨more.reverse, by simp only [front, some, List.reverse_cons]⟩
  · simp only [List.mem_append, not_or]
    exact ⟨⟨lastFree, free⟩, newline_notMem_takeWhile after⟩
  · conv_lhs => rw [split, ← List.takeWhile_append_dropWhile (p := (· ≠ '\n')) (l := after)]
    simp only [List.append_assoc]
  · conv_rhs => rw [split, List.count_append, List.count_eq_zero.mpr lastFree]
    rfl

namespace IsLine

variable {front line behind : List Char} (isLine : IsLine front line behind)

include isLine

/-- Line starts are numbered by the line feeds before them. -/
theorem getElem?_start (offset : Nat) :
    (offset :: laterStarts offset (front ++ line ++ behind))[front.count '\n']? =
      some (offset + utf8Len front) := by
  rcases isLine.opens with rfl | ⟨earlier, rfl⟩
  · rfl
  · have count : (earlier ++ ['\n']).count '\n' = (laterStarts offset earlier).length + 1 := by
      rw [length_laterStarts, List.count_append]
      rfl
    rw [count, List.getElem?_cons_succ, List.append_assoc, List.append_assoc, laterStarts_append]
    simp [laterStarts, String.utf8Len_append, Nat.add_assoc]

/-- The next line starts behind the line feed, if there is one. -/
theorem getElem?_next (offset : Nat) :
    (offset :: laterStarts offset (front ++ line ++ behind))[front.count '\n' + 1]? =
      if behind = [] then none else some (offset + utf8Len (front ++ line) + 1) := by
  have count : front.count '\n' = (laterStarts offset (front ++ line)).length := by
    rw [length_laterStarts, List.count_append, List.count_eq_zero.mpr isLine.free]
    rfl
  rw [count, List.getElem?_cons_succ, laterStarts_append]
  rcases isLine.closes with rfl | ⟨later, rfl⟩
  · simp [laterStarts]
  · simp [laterStarts, show '\n'.utf8Size = 1 from rfl]

end IsLine

namespace SourceFile

theorem lineRange?_of_isLine {file : SourceFile} {front line behind : List Char}
    (isLine : IsLine front line behind) (split : file.source.toList = front ++ line ++ behind) :
    file.lineRange? (front.count '\n' + 1) =
      some (utf8Len front, utf8Len front + utf8Len line) := by
  have starts : ∀ i : Nat, file.lineStarts[i]? =
      (0 :: laterStarts 0 (front ++ line ++ behind))[i]? := by
    intro i
    rw [file.lineStarts_eq, ← Array.getElem?_toList, lineStartsOf_eq, split]
  unfold lineRange?
  simp only [starts, isLine.getElem?_start, isLine.getElem?_next]
  rcases isLine.closes with rfl | ⟨later, rfl⟩
  · simp [← String.utf8Len_toList, split, String.utf8Len_append]
  · simp [String.utf8Len_append]

/-- The file gives a line of its text, without the carriage returns at the end. -/
theorem line?_of_isLine {file : SourceFile} {front line behind : List Char}
    (isLine : IsLine front line behind) (split : file.source.toList = front ++ line ++ behind) :
    file.line? (front.count '\n' + 1) = some (trimReturns (String.ofList line)) := by
  have extract := String.extract_of_valid front line behind
  rw [← split, String.ofList_toList] at extract
  rw [line?, lineRange?_of_isLine isLine split, Option.map_some]
  exact congrArg (some ∘ trimReturns) extract

/-- Carriage returns at the end of a line do not reach a word that has none. -/
theorem exists_trimReturns {word : List Char} (some : word ≠ []) (noReturn : '\r' ∉ word)
    (front rest : List Char) :
    ∃ more,
      (trimReturns (String.ofList (front ++ word ++ rest))).toList = front ++ word ++ more := by
  have stops : (front ++ word).reverse.dropWhile (· = '\r') = (front ++ word).reverse := by
    obtain ⟨c, cs, same⟩ := List.exists_cons_of_ne_nil (List.reverse_ne_nil_iff.mpr some)
    have other : c ≠ '\r' := by
      rintro rfl
      exact noReturn (List.mem_reverse.mp (by simp [same]))
    rw [List.reverse_append, same, List.cons_append,
      List.dropWhile_cons_of_neg (by simpa using other)]
  rw [trimReturns, String.toList_ofList, String.toList_ofList, List.reverse_append,
    List.dropWhile_append]
  split
  · exact ⟨[], by rw [stops, List.reverse_reverse, List.append_nil]⟩
  · exact ⟨(rest.reverse.dropWhile (· = '\r')).reverse, by
      rw [List.reverse_append, List.reverse_reverse]⟩

end SourceFile

end Monkey
