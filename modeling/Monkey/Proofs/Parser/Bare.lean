import Monkey.Program
import Monkey.Diagnostic.Basic
import Monkey.Proofs.Lexer.Scan

/-! # Trees without places

The bare form of a token, of a tree or of a diagnostic keeps everything but the spans. -/

namespace Monkey

def Token.bare (t : Token) : Token := { t with span := default }

def Identifier.bare (name : Identifier) : Identifier := { name with token := name.token.bare }

def Expression.bare : Expression → Expression
  | identifier name => identifier name.bare

def Statement.bare : Statement → Statement
  | letBinding keyword name value =>
    letBinding keyword.bare name.bare (value.map Expression.bare)
  | returning keyword value => returning keyword.bare (value.map Expression.bare)

def Label.bare (l : Label) : Label := { l with span := default }

def Diagnostic.bare (d : Diagnostic) : Diagnostic := { d with labels := d.labels.map Label.bare }

/-- Tokens of one kind and one text differ in their places only. -/
theorem Token.bare_eq_iff {t u : Token} : t.bare = u.bare ↔ t.lexeme = u.lexeme := by
  simp [bare, lexeme, String.toList_inj]

/-- The text of a statement does not show where its tokens stand. -/
theorem Statement.text_bare (s : Statement) : s.bare.text = s.text := by
  cases s with
  | letBinding keyword name value =>
    cases value with
    | none => rfl
    | some value => cases value; rfl
  | returning keyword value =>
    cases value with
    | none => rfl
    | some value => cases value; rfl

theorem Program.text_eq_of_bare {p q : Program}
    (h : p.statements.toList.map Statement.bare = q.statements.toList.map Statement.bare) :
    p.text = q.text := by
  have texts : ∀ statements : List Statement,
      statements.map Statement.text = (statements.map Statement.bare).map Statement.text := by
    intro statements
    rw [List.map_map]
    exact List.map_congr_left fun s _ => s.text_bare.symm
  rw [text, text, texts, h, ← texts]

end Monkey
