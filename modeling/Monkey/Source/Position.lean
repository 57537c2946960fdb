/-! # Positions and spans

A position counts lines and columns from one and bytes from zero; a span is the
part of one file between two positions. The main operation is `Span.merge`, the
smallest span that covers two spans of the same file. -/

namespace Monkey

/-- Names a file of a source cache. -/
abbrev FileId := UInt32

structure Position where
  line : Nat
  column : Nat
  offset : Nat
deriving DecidableEq, Inhabited

namespace Position

/-- The position of the first character of a text. -/
def first : Position := ⟨1, 1, 0⟩

/-- The position behind a character: a line feed opens a new line, and any other
character takes one column. -/
def after (p : Position) (c : Char) : Position :=
  if c = '\n' then ⟨p.line + 1, 1, p.offset + c.utf8Size⟩
  else ⟨p.line, p.column + 1, p.offset + c.utf8Size⟩

end Position

structure Span where
  start : Position
  stop : Position
  file : FileId
deriving DecidableEq, Inhabited

/-- Two spans that lie in different files. -/
structure FileMismatch where
  left : FileId
  right : FileId
deriving DecidableEq

def FileMismatch.message (m : FileMismatch) : String :=
  "assertion `left == right` failed: Cannot merge spans from different files\n" ++
    s!"  left: {m.left.toNat}\n right: {m.right.toNat}"

namespace Span

/-- The empty span at a position. -/
def point (p : Position) (file : FileId) : Span := ⟨p, p, file⟩

/-- The length in bytes; a span that ends before its start has length zero. -/
def length (s : Span) : Nat := s.stop.offset - s.start.offset

def isEmpty (s : Span) : Bool := s.length == 0

/-- The span from the earlier start to the later end. On equal offsets the
position of the first span is kept. -/
def merge (a b : Span) : Except FileMismatch Span :=
  if a.file = b.file then
    .ok {
      start := if a.start.offset ≤ b.start.offset then a.start else b.start
      stop := if b.stop.offset ≤ a.stop.offset then a.stop else b.stop
      file := a.file }
  else
    .error ⟨a.file, b.file⟩

end Span

end Monkey
