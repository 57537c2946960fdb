/-! # Source files

A file keeps its text and the byte offset at which each line starts, so that a
line is found by two look-ups and one slice. -/

namespace Monkey

/-- The byte offsets at which the lines of a text start: zero, and the place
behind each line feed. -/
def lineStartsOf (source : String) : Array Nat :=
  (source.toList.foldl
    (fun (starts, offset) c =>
      let next := offset + c.utf8Size
      (if c = '\n' then starts.push next else starts, next))
    (#[0], 0)).1

structure SourceFile where
  name : String
  source : String
  lineStarts : Array Nat
  lineStarts_eq : lineStarts = lineStartsOf source

namespace SourceFile

def ofText (name source : String) : SourceFile :=
  ⟨name, source, lineStartsOf source, rfl⟩

/-- The bytes of a line, counted from one, without its line feed. -/
def lineRange? (file : SourceFile) : Nat → Option (Nat × Nat)
  | 0 => none
  | i + 1 =>
    match file.lineStarts[i]? with
    | none => none
    | some start =>
      match file.lineStarts[i + 1]? with
      | none => some (start, file.source.utf8ByteSize)
      | some next => some (start, next - 1)

/-- A text without the carriage returns at its end. -/
def trimReturns (line : String) : String :=
  String.ofList (line.toList.reverse.dropWhile (· = '\r')).reverse

/-- The text of a line, counted from one, without its line end. -/
def line? (file : SourceFile) (n : Nat) : Option String :=
  (file.lineRange? n).map fun (start, stop) =>
    trimReturns (String.Pos.Raw.extract file.source ⟨start⟩ ⟨stop⟩)

end SourceFile

end Monkey
