/-! # Columns of text

Filling a text up to a width, counted in characters. -/

namespace Monkey.Text

/-- A character written a number of times. -/
def replicate (n : Nat) (c : Char) : String :=
  String.ofList (List.replicate n c)

def padLeft (width : Nat) (fill : Char) (s : String) : String :=
  replicate (width - s.length) fill ++ s

def padRight (width : Nat) (fill : Char) (s : String) : String :=
  s ++ replicate (width - s.length) fill

end Monkey.Text
