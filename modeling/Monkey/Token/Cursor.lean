import Monkey.Source.Position

/-! # The cursor

A cursor stands before the characters that are still to be read and knows how many
it has passed and the position it has come to. -/

namespace Monkey

structure Cursor where
  /-- The characters from the current one on. -/
  rest : List Char
  /-- The number of steps taken. -/
  index : Nat
  position : Position
deriving DecidableEq

namespace Cursor

def ofText (source : String) : Cursor := ⟨source.toList, 0, .first⟩

/-- The index of the character behind the current one. -/
def nextIndex (c : Cursor) : Nat := c.index + 1

/-- One step. At the end of the text only the count of steps grows. -/
def advance (c : Cursor) : Cursor :=
  match c.rest with
  | [] => { c with index := c.index + 1 }
  | ch :: rest => ⟨rest, c.index + 1, c.position.after ch⟩

/-- One step for each character of a text. -/
def advanceOver (c : Cursor) (text : List Char) : Cursor :=
  text.foldl (fun c _ => c.advance) c

theorem rest_advance (c : Cursor) : c.advance.rest = c.rest.tail := by
  unfold advance
  split <;> simp_all

theorem rest_advanceOver (c : Cursor) (text : List Char) :
    (c.advanceOver text).rest = c.rest.drop text.length := by
  induction text generalizing c with
  | nil => rfl
  | cons ch text ih =>
    simp only [advanceOver, List.foldl_cons] at ih ⊢
    rw [ih, rest_advance, List.length_cons, List.drop_tail]

/-- Each step is counted, also at the end of the text. -/
theorem index_advance (c : Cursor) : c.advance.index = c.index + 1 := by
  unfold advance
  split <;> rfl

theorem index_advanceOver (c : Cursor) (text : List Char) :
    (c.advanceOver text).index = c.index + text.length := by
  induction text generalizing c with
  | nil => rfl
  | cons ch text ih =>
    simp only [advanceOver, List.foldl_cons] at ih ⊢
    rw [ih, index_advance, List.length_cons]
    omega

end Cursor

end Monkey
