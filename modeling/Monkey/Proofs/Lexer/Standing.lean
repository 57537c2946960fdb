import Monkey.Proofs.Lexer.Scan

/-! # A lexer in its text

A lexer stands between the part of its text that it has read and the rest of it. Reading a
token keeps that, and behind the end of the text it stands at the end. -/

namespace Monkey

namespace Lexer

/-- A lexer of a file stands somewhere in a text. -/
structure StandsIn (lexer : Lexer) (text : List Char) (file : FileId) : Prop where
  split : ∃ passed rest, text = passed ++ rest ∧ lexer.cursor = .between passed rest
  file_eq : lexer.file = file

theorem standsIn_ofText (source : String) (file : FileId) :
    (ofText source file).StandsIn source.toList file :=
  ⟨⟨[], source.toList, rfl, rfl⟩, rfl⟩

namespace StandsIn

variable {lexer : Lexer} {text : List Char} {file : FileId}

/-- Where a lexer stands does not hang on the diagnostics that it holds. -/
theorem of_cursor (h : lexer.StandsIn text file) {other : Lexer}
    (cursor : other.cursor = lexer.cursor) (sameFile : other.file = lexer.file) :
    other.StandsIn text file :=
  ⟨cursor ▸ h.split, sameFile.trans h.file_eq⟩

theorem next (h : lexer.StandsIn text file) : lexer.next.2.StandsIn text file := by
  obtain ⟨passed, rest, rfl, cursor⟩ := h.split
  rcases next_cases cursor with ⟨_, read⟩ | ⟨gap, l, more, rfl, _, _, _, read⟩
  · rw [read]
    exact ⟨⟨passed ++ rest, [], by simp, rfl⟩, h.file_eq⟩
  · rw [read]
    exact ⟨⟨passed ++ gap ++ l.text, more, by simp, rfl⟩, h.file_eq⟩

theorem pulled (h : lexer.StandsIn text file) (k : Nat) : (lexer.pulled k).StandsIn text file := by
  induction k with
  | zero => exact h
  | succ k ih => exact ih.next

/-- A lexer with nothing left to read has passed the whole text. -/
theorem cursor_eq (h : lexer.StandsIn text file) (finished : lexer.cursor.rest = []) :
    lexer.cursor = .between text [] := by
  obtain ⟨passed, rest, rfl, cursor⟩ := h.split
  rw [cursor, Cursor.between_rest] at finished
  rw [cursor, finished, List.append_nil]

end StandsIn

/-- A lexer that has just given the end has nothing left to read. -/
theorem rest_next_of_eof {lexer : Lexer} (h : lexer.next.1.kind = .eof) :
    lexer.next.2.cursor.rest = [] := by
  have finished := (next_kind_eq_eof_iff lexer).mp h
  rw [next_of_end finished]
  exact finished

end Lexer

end Monkey
