import Monkey.Diagnostic.Basic
import Monkey.Token.Basic
import Monkey.Token.Cursor

/-! # Reading tokens

A lexeme is the longest word, number or operator that the rest of the text starts
with. The lexer passes over blanks, reads one lexeme at a time and records a
diagnostic for each character that starts none. Each token shortens the rest of the
text, so reading to the end is well founded. -/

namespace Monkey

/-! ## Character classes -/

def isBlank (c : Char) : Bool :=
  c == ' ' || c == '\t' || c == '\n' || c == '\r'

/-- ASCII letters and the underscore. -/
def isLetter (c : Char) : Bool :=
  c.isAlpha || c == '_'

/-! ## Lexemes -/

structure Lexeme where
  kind : Kind
  text : List Char
deriving DecidableEq

namespace Lexeme

/-- A word is a keyword or an identifier. -/
def ofWord (word : List Char) : Lexeme :=
  ⟨(Kind.ofWord? (String.ofList word)).getD .ident, word⟩

/-- The lexeme at the start of a text, given as its first character and the others. -/
def read (c : Char) (rest : List Char) : Lexeme :=
  if isLetter c then ofWord ((c :: rest).takeWhile isLetter)
  else if c.isDigit then ⟨.int, (c :: rest).takeWhile Char.isDigit⟩
  else match c, rest with
    | '=', '=' :: _ => ⟨.eq, ['=', '=']⟩
    | '!', '=' :: _ => ⟨.notEq, ['!', '=']⟩
    | '=', _ => ⟨.assign, [c]⟩
    | '!', _ => ⟨.bang, [c]⟩
    | '+', _ => ⟨.plus, [c]⟩
    | '-', _ => ⟨.minus, [c]⟩
    | '*', _ => ⟨.asterisk, [c]⟩
    | '/', _ => ⟨.slash, [c]⟩
    | '<', _ => ⟨.lt, [c]⟩
    | '>', _ => ⟨.gt, [c]⟩
    | ',', _ => ⟨.comma, [c]⟩
    | ';', _ => ⟨.semicolon, [c]⟩
    | '(', _ => ⟨.lparen, [c]⟩
    | ')', _ => ⟨.rparen, [c]⟩
    | '\x7b', _ => ⟨.lbrace, [c]⟩
    | '\x7d', _ => ⟨.rbrace, [c]⟩
    | _, _ => ⟨.illegal, [c]⟩

theorem text_read_ne_nil (c : Char) (rest : List Char) : (read c rest).text ≠ [] := by
  unfold read
  split
  · rename_i h
    simp [ofWord, h]
  · split
    · rename_i h
      simp [h]
    · split <;> simp

/-- The token that a lexeme makes where it is read. -/
def token (lexeme : Lexeme) (start : Cursor) (file : FileId) : Token :=
  ⟨lexeme.kind, String.ofList lexeme.text,
    ⟨start.position, (start.advanceOver lexeme.text).position, file⟩⟩

end Lexeme

/-! ## The lexer -/

/-- The diagnostic for a character that starts no token. -/
def Token.illegalCharacter (token : Token) : Diagnostic :=
  Diagnostic.error s!"illegal character '{token.literal}'"
    |>.withCode .illegalCharacter
    |>.withLabel token.span "not part of the Monkey language"

structure Lexer where
  cursor : Cursor
  file : FileId
  diagnostics : Diagnostics

namespace Lexer

def ofText (source : String) (file : FileId) : Lexer :=
  ⟨.ofText source, file, #[]⟩

/-- The cursor on the first character that is not blank. -/
def afterBlanks (lexer : Lexer) : Cursor :=
  lexer.cursor.advanceOver (lexer.cursor.rest.takeWhile isBlank)

/-- Reads one token. At the end of the text each call gives the same empty token. -/
def next (lexer : Lexer) : Token × Lexer :=
  let start := lexer.afterBlanks
  match start.rest with
  | [] => (⟨.eof, "", .point start.position lexer.file⟩, { lexer with cursor := start })
  | c :: rest =>
    let lexeme := Lexeme.read c rest
    let token := lexeme.token start lexer.file
    (token,
      { lexer with
        cursor := start.advanceOver lexeme.text
        diagnostics :=
          if token.isIllegal then lexer.diagnostics.push token.illegalCharacter
          else lexer.diagnostics })

theorem next_of_end {lexer : Lexer} (h : lexer.afterBlanks.rest = []) :
    lexer.next = (⟨.eof, "", .point lexer.afterBlanks.position lexer.file⟩,
      { lexer with cursor := lexer.afterBlanks }) := by
  rw [next, h]

theorem next_of_cons {lexer : Lexer} {c : Char} {rest : List Char}
    (h : lexer.afterBlanks.rest = c :: rest) :
    lexer.next = ((Lexeme.read c rest).token lexer.afterBlanks lexer.file,
      { lexer with
        cursor := lexer.afterBlanks.advanceOver (Lexeme.read c rest).text
        diagnostics :=
          if ((Lexeme.read c rest).token lexer.afterBlanks lexer.file).isIllegal then
            lexer.diagnostics.push
              ((Lexeme.read c rest).token lexer.afterBlanks lexer.file).illegalCharacter
          else lexer.diagnostics }) := by
  rw [next, h]

theorem rest_afterBlanks (lexer : Lexer) :
    lexer.afterBlanks.rest = lexer.cursor.rest.dropWhile isBlank := by
  rw [afterBlanks, Cursor.rest_advanceOver]
  generalize lexer.cursor.rest = rest
  induction rest with
  | nil => rfl
  | cons c rest ih => by_cases h : isBlank c <;> simp [h, ih]

theorem length_rest_afterBlanks_le (lexer : Lexer) :
    lexer.afterBlanks.rest.length ≤ lexer.cursor.rest.length := by
  rw [afterBlanks, Cursor.rest_advanceOver, List.length_drop]
  exact Nat.sub_le _ _

/-- A token other than the last is read from at least one character. -/
theorem length_rest_next (lexer : Lexer) :
    lexer.next.2.cursor.rest.length + lexer.next.1.weight ≤ lexer.cursor.rest.length := by
  have blanks := lexer.length_rest_afterBlanks_le
  cases h : lexer.afterBlanks.rest with
  | nil => simp [next_of_end h, h, Token.weight]
  | cons c rest =>
    have pos := List.length_pos_iff.mpr (Lexeme.text_read_ne_nil c rest)
    rw [h, List.length_cons] at blanks
    simp only [next_of_cons h, Cursor.rest_advanceOver, h, List.length_drop, List.length_cons,
      Token.weight]
    split <;> omega

/-- Reads tokens up to and including the end of the text. -/
def tokenizeFrom (tokens : Array Token) (lexer : Lexer) : Array Token × Lexer :=
  let read := lexer.next
  if read.1.kind = .eof then (tokens.push read.1, read.2)
  else tokenizeFrom (tokens.push read.1) read.2
termination_by lexer.cursor.rest.length
decreasing_by
  rename_i more
  have shorter := lexer.length_rest_next
  rw [Token.weight_of_ne more] at shorter
  exact shorter

def tokenize (lexer : Lexer) : Array Token × Lexer := lexer.tokenizeFrom #[]

/-- Hands out the diagnostics held so far. -/
def takeDiagnostics (lexer : Lexer) : Diagnostics × Lexer :=
  (lexer.diagnostics, { lexer with diagnostics := #[] })

/-! ## Requests -/

inductive Request where
  | next
  | tokenize
  | diagnostics
  | takeDiagnostics

inductive Reply where
  | token (token : Token)
  | tokens (tokens : Array Token)
  | diagnostics (diagnostics : Diagnostics)
deriving DecidableEq

/-- Answers one request, so that any run of a lexer is a list of requests. -/
def answer (lexer : Lexer) : Request → Reply × Lexer
  | .next =>
    let read := lexer.next
    (.token read.1, read.2)
  | .tokenize =>
    let read := lexer.tokenize
    (.tokens read.1, read.2)
  | .diagnostics => (.diagnostics lexer.diagnostics, lexer)
  | .takeDiagnostics =>
    let taken := lexer.takeDiagnostics
    (.diagnostics taken.1, taken.2)

end Lexer

/-- All tokens of a text, with a diagnostic for each illegal character. -/
def tokenize (source : String) (file : FileId) : Array Token × Diagnostics :=
  let (tokens, lexer) := (Lexer.ofText source file).tokenize
  (tokens, lexer.diagnostics)

end Monkey
