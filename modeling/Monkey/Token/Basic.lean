import Monkey.Outline
import Monkey.Source.Position
import Monkey.Token.Kind

/-! # Tokens

A token is a kind, the exact text it was read from, and where that text stands. -/

namespace Monkey

namespace Position

def outline (p : Position) : Outline :=
  .record "Position"
    [("line", .number p.line), ("column", .number p.column), ("offset", .number p.offset)]

end Position

namespace Span

def outline (s : Span) : Outline :=
  .record "Span"
    [("start", s.start.outline), ("end", s.stop.outline), ("file_id", .number s.file.toNat)]

end Span

structure Token where
  kind : Kind
  literal : String
  span : Span
deriving DecidableEq, Inhabited

namespace Token

def isEof (t : Token) : Bool := t.kind == .eof

def isIllegal (t : Token) : Bool := t.kind == .illegal

/-- How much of a text a token stands for: the end for nothing, any other for
something. -/
def weight (t : Token) : Nat := if t.kind = .eof then 0 else 1

theorem weight_of_ne {t : Token} (h : t.kind ≠ .eof) : t.weight = 1 := if_neg h

/-- Kind, quoted text and place, on one line. -/
def text (t : Token) : String :=
  s!"{t.kind.text} {Text.quote t.literal} at {t.span.start.line}:{t.span.start.column}"

def outline (t : Token) : Outline :=
  .record "Token"
    [("kind", .atom t.kind.name), ("literal", .quoted t.literal), ("span", t.span.outline)]

end Token

end Monkey
