/-! # Kinds of tokens

The closed set of token kinds, with their spelling, their constructor name and the
reserved words. -/

namespace Monkey

inductive Kind where
  | eof
  | illegal
  | ident
  | int
  | assign
  | plus
  | minus
  | bang
  | asterisk
  | slash
  | lt
  | gt
  | eq
  | notEq
  | comma
  | semicolon
  | lparen
  | rparen
  | lbrace
  | rbrace
  | function
  | letWord
  | trueWord
  | falseWord
  | ifWord
  | elseWord
  | returnWord
deriving DecidableEq, Inhabited

namespace Kind

/-- The spelling of operators, delimiters and keywords; classes of tokens have a
name in capitals. -/
def text : Kind → String
  | eof => "EOF"
  | illegal => "ILLEGAL"
  | ident => "IDENT"
  | int => "INT"
  | assign => "="
  | plus => "+"
  | minus => "-"
  | bang => "!"
  | asterisk => "*"
  | slash => "/"
  | lt => "<"
  | gt => ">"
  | eq => "=="
  | notEq => "!="
  | comma => ","
  | semicolon => ";"
  | lparen => "("
  | rparen => ")"
  | lbrace => "\x7b"
  | rbrace => "\x7d"
  | function => "fn"
  | letWord => "let"
  | trueWord => "true"
  | falseWord => "false"
  | ifWord => "if"
  | elseWord => "else"
  | returnWord => "return"

/-- The name of the kind in outlines. -/
def name : Kind → String
  | eof => "Eof"
  | illegal => "Illegal"
  | ident => "Ident"
  | int => "Int"
  | assign => "Assign"
  | plus => "Plus"
  | minus => "Minus"
  | bang => "Bang"
  | asterisk => "Asterisk"
  | slash => "Slash"
  | lt => "Lt"
  | gt => "Gt"
  | eq => "Eq"
  | notEq => "NotEq"
  | comma => "Comma"
  | semicolon => "Semicolon"
  | lparen => "LParen"
  | rparen => "RParen"
  | lbrace => "LBrace"
  | rbrace => "RBrace"
  | function => "Function"
  | letWord => "Let"
  | trueWord => "True"
  | falseWord => "False"
  | ifWord => "If"
  | elseWord => "Else"
  | returnWord => "Return"

/-- Every kind, in the order of the declaration. -/
def all : List Kind :=
  [eof, illegal, ident, int, assign, plus, minus, bang, asterisk, slash, lt, gt, eq, notEq,
    comma, semicolon, lparen, rparen, lbrace, rbrace,
    function, letWord, trueWord, falseWord, ifWord, elseWord, returnWord]

def isKeyword : Kind → Bool
  | function | letWord | trueWord | falseWord | ifWord | elseWord | returnWord => true
  | _ => false

/-- The kind of a reserved word. -/
def ofWord? (word : String) : Option Kind :=
  if word = "fn" then some function
  else if word = "let" then some letWord
  else if word = "true" then some trueWord
  else if word = "false" then some falseWord
  else if word = "if" then some ifWord
  else if word = "else" then some elseWord
  else if word = "return" then some returnWord
  else none

/-- The kind with a given name in outlines. -/
def ofName? (name : String) : Option Kind :=
  all.find? fun kind => kind.name == name

end Kind

end Monkey
