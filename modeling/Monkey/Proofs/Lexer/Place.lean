import Mathlib.Data.String.Basic
import Mathlib.Data.List.Induction
import Monkey.Token.Cursor

/-! # Places in a text

The position behind a text is counted one character at a time. The closed forms below
count line feeds, the characters of the last line and bytes. -/

namespace Monkey

open String (utf8Len)

/-- The bytes of some first characters of a text end between two characters. -/
theorem isValid_utf8Len {source : String} {before after : List Char}
    (split : source.toList = before ++ after) :
    String.Pos.Raw.IsValid source ⟨utf8Len before⟩ := by
  rw [String.Pos.Raw.isValid_iff_exists_take_toList]
  refine ⟨before.length, ?_⟩
  rw [split, List.take_left, String.utf8ByteSize_ofList]

/-- The characters behind the last line feed of a text. -/
def lastLine (text : List Char) : List Char :=
  (text.reverse.takeWhile (· ≠ '\n')).reverse

theorem lastLine_append_of_not_mem (text : List Char) {word : List Char} (h : '\n' ∉ word) :
    lastLine (text ++ word) = lastLine text ++ word := by
  have all : ∀ c ∈ word.reverse, decide (c ≠ '\n') = true := by
    intro c hc
    simp only [decide_eq_true_eq]
    rintro rfl
    exact h (List.mem_reverse.mp hc)
  simp only [lastLine, List.reverse_append, List.takeWhile_append_of_pos all,
    List.reverse_reverse]

namespace Position

/-- The position behind a text that starts at a position. -/
def afterText (p : Position) (text : List Char) : Position := text.foldl after p

@[simp] theorem afterText_nil (p : Position) : p.afterText [] = p := rfl

@[simp] theorem afterText_cons (p : Position) (c : Char) (text : List Char) :
    p.afterText (c :: text) = (p.after c).afterText text := rfl

theorem afterText_append (p : Position) (text more : List Char) :
    p.afterText (text ++ more) = (p.afterText text).afterText more :=
  List.foldl_append

@[simp] theorem after_offset (p : Position) (c : Char) :
    (p.after c).offset = p.offset + c.utf8Size := by
  unfold after
  split <;> rfl

theorem after_line (p : Position) (c : Char) :
    (p.after c).line = p.line + [c].count '\n' := by
  unfold after
  split <;> simp_all

theorem afterText_offset (p : Position) (text : List Char) :
    (p.afterText text).offset = p.offset + utf8Len text := by
  induction text generalizing p with
  | nil => rfl
  | cons c text ih =>
    rw [afterText_cons, ih, after_offset, String.utf8Len_cons]
    omega

theorem afterText_line (p : Position) (text : List Char) :
    (p.afterText text).line = p.line + text.count '\n' := by
  induction text generalizing p with
  | nil => rfl
  | cons c text ih =>
    have split : (c :: text).count '\n' = [c].count '\n' + text.count '\n' := by
      rw [← List.count_append, List.singleton_append]
    rw [afterText_cons, ih, after_line, split]
    omega

/-- A line feed opens a line, so only the characters behind the last one count. -/
theorem afterText_first_column (text : List Char) :
    (first.afterText text).column = 1 + (lastLine text).length := by
  induction text using List.reverseRecOn with
  | nil => rfl
  | append_singleton text c ih =>
    rw [afterText_append, afterText_cons, afterText_nil]
    by_cases h : c = '\n'
    · simp [after, lastLine, h]
    · rw [lastLine_append_of_not_mem text (by simpa using Ne.symm h)]
      simp only [after, h, if_false, ih, List.length_append, List.length_singleton]
      omega

end Position

namespace Cursor

/-- The cursor between the part of a text that is read and the rest of it. -/
def between (passed rest : List Char) : Cursor :=
  ⟨rest, passed.length, Position.first.afterText passed⟩

@[simp] theorem between_rest (passed rest : List Char) : (between passed rest).rest = rest := rfl

theorem advance_between (passed rest : List Char) (c : Char) :
    (between passed (c :: rest)).advance = between (passed ++ [c]) rest := by
  simp [between, advance, Position.afterText_append]

/-- Advancing over what comes next passes exactly that. -/
theorem advanceOver_between (passed text rest : List Char) :
    (between passed (text ++ rest)).advanceOver text = between (passed ++ text) rest := by
  induction text generalizing passed with
  | nil => simp [advanceOver]
  | cons c text ih =>
    have h := ih (passed ++ [c])
    simp only [advanceOver, List.cons_append, List.foldl_cons, advance_between] at h ⊢
    simpa using h

end Cursor

end Monkey
