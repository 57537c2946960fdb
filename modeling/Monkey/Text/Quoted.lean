import Monkey.Text.Printable

/-! # Quoted text

A text between double quotes, with a backslash form for the quote, the backslash,
the common control characters and every character that is not printable. -/

namespace Monkey.Text

/-- A lower-case hexadecimal number without leading zeros. -/
def hexadecimal (n : Nat) : String :=
  String.ofList (Nat.toDigits 16 n)

/-- A character written by its code point. -/
def codeEscape (c : Char) : String :=
  "\\u\x7b" ++ hexadecimal c.toNat ++ "\x7d"

/-- How a character is written inside the quotes. -/
def quoteChar (c : Char) : String :=
  if c = '"' then "\\\""
  else if c = '\\' then "\\\\"
  else if c = '\n' then "\\n"
  else if c = '\r' then "\\r"
  else if c = '\t' then "\\t"
  else if c = '\x00' then "\\0"
  else if isPrintable c then c.toString
  else codeEscape c

def quote (s : String) : String :=
  "\"" ++ String.join (s.toList.map quoteChar) ++ "\""

end Monkey.Text
