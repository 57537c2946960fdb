import Monkey.Source.Position
import Monkey.Text.Column

/-! # Diagnostics

A diagnostic is a message with an optional code, labels that point into files, and
lines of notes and of help. Diagnostics are collected in the order in which they
are found. -/

namespace Monkey

/-- A part of a file that a diagnostic speaks about. The primary labels mark the
error itself, the others its surroundings. -/
structure Label where
  span : Span
  message : String
  isPrimary : Bool
deriving DecidableEq

structure ErrorCode where
  category : Char
  number : UInt16
deriving DecidableEq

namespace ErrorCode

def illegalCharacter : ErrorCode := ⟨'L', 1⟩

def unexpectedToken : ErrorCode := ⟨'P', 1⟩

/-- The letter E, the category and at least three digits. -/
def text (code : ErrorCode) : String :=
  "E" ++ code.category.toString ++ Text.padLeft 3 '0' (toString code.number.toNat)

end ErrorCode

structure Diagnostic where
  code : Option ErrorCode
  message : String
  labels : List Label
  notes : List String
  help : List String
deriving DecidableEq

namespace Diagnostic

/-- A bare message. -/
def error (message : String) : Diagnostic := ⟨none, message, [], [], []⟩

def withCode (d : Diagnostic) (code : ErrorCode) : Diagnostic :=
  { d with code := some code }

def withLabel (d : Diagnostic) (span : Span) (message : String) : Diagnostic :=
  { d with labels := d.labels ++ [⟨span, message, true⟩] }

def withSecondaryLabel (d : Diagnostic) (span : Span) (message : String) : Diagnostic :=
  { d with labels := d.labels ++ [⟨span, message, false⟩] }

def withNote (d : Diagnostic) (note : String) : Diagnostic :=
  { d with notes := d.notes ++ [note] }

def withHelp (d : Diagnostic) (help : String) : Diagnostic :=
  { d with help := d.help ++ [help] }

end Diagnostic

/-- Diagnostics in the order in which they were found. -/
abbrev Diagnostics := Array Diagnostic

def Diagnostics.messages (ds : Diagnostics) : List String :=
  ds.toList.map Diagnostic.message

end Monkey
