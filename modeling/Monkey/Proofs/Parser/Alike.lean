import Monkey.Proofs.Lexer.Layout
import Monkey.Proofs.Parser.Agreement
import Monkey.Proofs.Parser.Bare

/-! # Texts that are read alike

Main statement: texts with the same kinds and literals of tokens give the same programs and
diagnostics but for the places, whatever blanks stand between the tokens. -/

namespace Monkey

/-- What is read from two texts is the same but for the places. -/
structure ReadAlike (read read' : Program × Window) : Prop where
  statements : read.1.statements.toList.map Statement.bare =
    read'.1.statements.toList.map Statement.bare
  text : read.1.text = read'.1.text
  lexical : read.2.lexer.diagnostics.toList.map Diagnostic.bare =
    read'.2.lexer.diagnostics.toList.map Diagnostic.bare
  syntactic : read.2.diagnostics.toList.map Diagnostic.bare =
    read'.2.diagnostics.toList.map Diagnostic.bare

theorem Token.map_bare_of_map_lexeme {tokens others : List Token}
    (h : tokens.map Token.lexeme = others.map Token.lexeme) :
    tokens.map Token.bare = others.map Token.bare := by
  have read : ∀ t : Token, t.bare = ⟨t.lexeme.kind, String.ofList t.lexeme.text, default⟩ := by
    intro t
    rw [bare, lexeme, String.ofList_toList]
  have all : ∀ tokens : List Token, tokens.map Token.bare = (tokens.map Token.lexeme).map
      fun l => ⟨l.kind, String.ofList l.text, default⟩ := by
    intro tokens
    rw [List.map_map]
    exact List.map_congr_left fun t _ => read t
  rw [all, all, h]

theorem Statement.relocate_default (s : Statement) : s.relocate (fun _ => default) = s.bare := by
  cases s with
  | letBinding keyword name value => rcases value with _ | ⟨⟨_⟩⟩ <;> rfl
  | returning keyword value => rcases value with _ | ⟨⟨_⟩⟩ <;> rfl

theorem readAlike_of_lexemes {source other : String} {file file' : FileId}
    (same : (tokenize source file).1.toList.map Token.lexeme =
      (tokenize other file').1.toList.map Token.lexeme) (recovery : Recovery)
    (rule : StandardRule) :
    ReadAlike (readWith rule.rule source file recovery)
      (readWith rule.rule other file' recovery) := by
  obtain ⟨value, window⟩ := readWith_agree rule.ignoresSpans (f := fun _ => default)
    (g := fun _ => default) (Token.map_bare_of_map_lexeme same) recovery
  have statements := congrArg (Array.toList ∘ Program.statements) value
  simp only [Function.comp, Program.relocate, Array.toList_map, funext Statement.relocate_default]
    at statements
  have lexical := congrArg Array.toList window.recorded
  have syntactic := congrArg Array.toList window.diagnostics
  rw [Array.toList_map, Array.toList_map] at lexical syntactic
  exact ⟨statements, Program.text_eq_of_bare statements, lexical, syntactic⟩

/-- Texts with the same kinds and literals of tokens are read alike: the same programs and
diagnostics come out, at other places. So other blanks between the lexemes of a text change
nothing but places, as long as no two lexemes run together. -/
theorem texts_of_same_lexemes_read_alike (recovery : Recovery) (rule : StandardRule)
    (file file' : FileId) :
    (∀ source other : String,
      (tokenize source file).1.toList.map Token.lexeme =
        (tokenize other file').1.toList.map Token.lexeme →
      ReadAlike (readWith rule.rule source file recovery)
        (readWith rule.rule other file' recovery)) ∧
    ∀ layout other : Layout, layout.Separated → other.Separated →
      layout.lexemes = other.lexemes →
      ReadAlike (readWith rule.rule (String.ofList layout.text) file recovery)
        (readWith rule.rule (String.ofList other.text) file' recovery) := by
  refine ⟨fun source other same => readAlike_of_lexemes same recovery rule, ?_⟩
  intro layout other separated separatedOther same
  have read := (lexemes_tokenize_iff layout file).mpr separated
  have readOther := (lexemes_tokenize_iff other file').mpr separatedOther
  rw [same, ← readOther] at read
  exact readAlike_of_lexemes read recovery rule

/-- A program in the middle of a value and a keyword without a name, each on one line and
spread over lines. -/
theorem texts_of_same_lexemes_read_alike_spread :
    let source := "let a=\x7blet b=c let §"
    let other := " let\ta =\r\n\x7blet b\n=c\nlet\n\t§\n"
    let layout := Layout.item [] ⟨.letWord, "let".toList⟩ isGap_nil (.keyword rfl)
      (.item [] ⟨.assign, "=".toList⟩ isGap_nil (.mark rfl) (.finish [] isGap_nil))
    let spread := Layout.item ['\n'] ⟨.letWord, "let".toList⟩ (isGap_singleton rfl) (.keyword rfl)
      (.item ['\t'] ⟨.assign, "=".toList⟩ (isGap_singleton rfl) (.mark rfl) (.finish [] isGap_nil))
    ReadAlike (readWith Rule.nested source 0 .skipToken) (readWith Rule.nested other 1 .skipToken) ∧
    (readWith Rule.nested source 0 .skipToken).1 ≠ (readWith Rule.nested other 1 .skipToken).1 ∧
    ReadAlike (readWith Rule.nested (String.ofList layout.text) 0 .skipToken)
      (readWith Rule.nested (String.ofList spread.text) 1 .skipToken) := by
  intro source other layout spread
  obtain ⟨sources, layouts⟩ := texts_of_same_lexemes_read_alike .skipToken .nested 0 1
  refine ⟨sources source other (by decide +kernel), by decide +kernel, ?_⟩
  have apart : ¬ Lexeme.Glues ⟨.letWord, "let".toList⟩ ⟨.assign, "=".toList⟩ := by
    simp [Lexeme.Glues, Kind.isWord, Kind.isKeyword]
  have near : layout.Separated := by
    simpa [layout, Layout.Separated, Layout.lexemes, Layout.gap] using apart
  have far : spread.Separated := by
    simp [spread, Layout.Separated, Layout.lexemes, Layout.gap]
  exact layouts layout spread near far rfl

end Monkey
