import Mathlib.Data.List.TakeWhile
import Monkey.Token.Lexer

/-! # Lexemes

The words of the language, said without the way in which they are read. Main statement:
in front of any text, a lexeme is read as itself exactly when that text does not carry
it on. -/

namespace Monkey

/-! ## Classes of kinds -/

namespace Kind

/-- Operators and delimiters. -/
def isMark : Kind → Bool
  | assign | plus | minus | bang | asterisk | slash | lt | gt | eq | notEq
  | comma | semicolon | lparen | rparen | lbrace | rbrace => true
  | _ => false

/-- Identifiers and reserved words. -/
def isWord (kind : Kind) : Bool := kind == ident || kind.isKeyword

theorem ofWord?_text {kind : Kind} (h : kind.isKeyword = true) :
    ofWord? kind.text = some kind := by
  cases kind <;> first | rfl | cases h

theorem text_of_ofWord? {word : String} {kind : Kind} (h : ofWord? word = some kind) :
    kind.isKeyword = true ∧ word = kind.text := by
  unfold ofWord? at h
  repeat' split at h
  all_goals cases h
  all_goals exact ⟨rfl, by assumption⟩

theorem ofWord?_eq_none {word : String} :
    ofWord? word = none ↔ ∀ kind : Kind, kind.isKeyword = true → word ≠ kind.text := by
  constructor
  · rintro h kind hk rfl
    rw [ofWord?_text hk] at h
    cases h
  · intro h
    cases hw : ofWord? word with
    | none => rfl
    | some kind =>
      obtain ⟨hk, rfl⟩ := text_of_ofWord? hw
      exact absurd rfl (h kind hk)

end Kind

/-! ## Classes of characters -/

theorem isLetter_of_isBlank {c : Char} (h : isBlank c = true) : isLetter c = false := by
  simp only [isBlank, Bool.or_eq_true, beq_iff_eq] at h
  rcases h with ((rfl | rfl) | rfl) | rfl <;> decide

theorem isDigit_of_isBlank {c : Char} (h : isBlank c = true) : c.isDigit = false := by
  simp only [isBlank, Bool.or_eq_true, beq_iff_eq] at h
  rcases h with ((rfl | rfl) | rfl) | rfl <;> decide

theorem isDigit_of_isLetter {c : Char} (h : isLetter c = true) : c.isDigit = false := by
  -- The classes as ranges of code points, which are apart.
  have letter : (decide (c.val ≥ 'A'.val ∧ c.val ≤ 'Z'.val) ||
      (decide (c.val ≥ 'a'.val) && decide (c.val ≤ 'z'.val)) || c == '_') = true := h
  show (decide (c.val ≥ '0'.val) && decide (c.val ≤ '9'.val)) = false
  by_cases hc : c = '_'
  · subst hc
    decide
  · grind

namespace Kind

theorem text_ne_nil (kind : Kind) : kind.text.toList ≠ [] := by
  cases kind <;> decide

theorem isBlank_of_mem_text (kind : Kind) : ∀ c ∈ kind.text.toList, isBlank c = false := by
  have all : kind.text.toList.all (!isBlank ·) = true := by cases kind <;> decide
  simpa using all

theorem isLetter_of_mem_text {kind : Kind} (h : kind.isKeyword = true) :
    ∀ c ∈ kind.text.toList, isLetter c = true := by
  have all : kind.text.toList.all isLetter = true := by
    revert h
    cases kind <;> decide
  simpa using all

theorem isWord_of_isKeyword {kind : Kind} (h : kind.isKeyword = true) : kind.isWord = true := by
  simp [isWord, h]

theorem head_of_isMark {kind : Kind} (h : kind.isMark = true) :
    ∀ c ∈ kind.text.toList.head?, isLetter c = false ∧ c.isDigit = false ∧
      (c = '=' ↔ kind = .assign ∨ kind = .eq) := by
  have all : kind.text.toList.head?.all fun c => decide (isLetter c = false ∧
      c.isDigit = false ∧ (c = '=' ↔ kind = .assign ∨ kind = .eq)) := by
    revert h
    cases kind <;> decide
  intro c hc
  rw [hc] at all
  exact of_decide_eq_true all

theorem ne_of_isWord {kind : Kind} (h : kind.isWord = true) :
    kind ≠ .int ∧ kind ≠ .assign ∧ kind ≠ .bang ∧ kind ≠ .eq := by
  revert h
  cases kind <;> decide

theorem isWord_of_isMark {kind : Kind} (h : kind.isMark = true) : kind.isWord = false := by
  revert h
  cases kind <;> decide

end Kind

/-- A character that no token starts with and that is not passed over as a blank. -/
def IsForeign (c : Char) : Prop :=
  isBlank c = false ∧ isLetter c = false ∧ c.isDigit = false ∧
    ∀ kind : Kind, kind.isMark = true → c ∉ kind.text.toList

/-! ## The lexemes -/

/-- The lexemes of the language: reserved words, identifiers, numbers, operators and
delimiters, and the characters that belong to none of them. -/
inductive IsLexeme : Lexeme → Prop
  | keyword {kind : Kind} (h : kind.isKeyword = true) : IsLexeme ⟨kind, kind.text.toList⟩
  | ident {word : List Char} (nonempty : word ≠ []) (letters : ∀ c ∈ word, isLetter c = true)
      (free : ∀ kind : Kind, kind.isKeyword = true → word ≠ kind.text.toList) :
      IsLexeme ⟨.ident, word⟩
  | int {digits : List Char} (nonempty : digits ≠ [])
      (decimal : ∀ c ∈ digits, c.isDigit = true) : IsLexeme ⟨.int, digits⟩
  | mark {kind : Kind} (h : kind.isMark = true) : IsLexeme ⟨kind, kind.text.toList⟩
  | illegal {c : Char} (h : IsForeign c) : IsLexeme ⟨.illegal, [c]⟩

namespace Lexeme

/-- A character that carries on the lexeme before it. -/
def Continues (l : Lexeme) (c : Char) : Prop :=
  (l.kind.isWord = true ∧ isLetter c = true) ∨
  (l.kind = .int ∧ c.isDigit = true) ∨
  ((l.kind = .assign ∨ l.kind = .bang) ∧ c = '=')

/-- A lexeme ends before a text whose first character does not carry it on. -/
def StopsAt (l : Lexeme) (rest : List Char) : Prop := ∀ c ∈ rest.head?, ¬ l.Continues c

/-- Two lexemes that run together when nothing stands between them. -/
def Glues (a b : Lexeme) : Prop :=
  (a.kind.isWord = true ∧ b.kind.isWord = true) ∨
  (a.kind = .int ∧ b.kind = .int) ∨
  ((a.kind = .assign ∨ a.kind = .bang) ∧ (b.kind = .assign ∨ b.kind = .eq))

end Lexeme

namespace IsLexeme

variable {l : Lexeme}

theorem kind_ne_eof (h : IsLexeme l) : l.kind ≠ .eof := by
  cases h with
  | keyword h | mark h =>
    rintro rfl
    cases h
  | _ => nofun

theorem text_ne_nil (h : IsLexeme l) : l.text ≠ [] := by
  cases h with
  | keyword | mark => exact Kind.text_ne_nil _
  | ident nonempty | int nonempty => exact nonempty
  | illegal => exact List.cons_ne_nil _ _

theorem isBlank_of_mem (h : IsLexeme l) : ∀ c ∈ l.text, isBlank c = false := by
  intro c hc
  cases h with
  | keyword | mark => exact Kind.isBlank_of_mem_text _ c hc
  | ident _ letters =>
    refine Bool.eq_false_iff.mpr fun blank => ?_
    simpa [isLetter_of_isBlank blank] using letters c hc
  | int _ decimal =>
    refine Bool.eq_false_iff.mpr fun blank => ?_
    simpa [isDigit_of_isBlank blank] using decimal c hc
  | illegal h =>
    obtain rfl := List.mem_singleton.mp hc
    exact h.1

end IsLexeme

/-! ## Reading a lexeme -/

theorem takeWhile_append_eq_self {p : Char → Bool} {word rest : List Char}
    (h : ∀ c ∈ word, p c = true) :
    (word ++ rest).takeWhile p = word ↔ ∀ c ∈ rest.head?, ¬ p c = true := by
  rw [List.takeWhile_append_of_pos h, List.append_right_eq_self]
  cases rest with
  | nil => simp
  | cons c rest => simp [List.takeWhile_cons]

namespace Lexeme

variable {l : Lexeme} {c : Char} {cs : List Char}

theorem read_of_isLetter (h : isLetter c = true) (rest : List Char) :
    read c rest = ofWord ((c :: rest).takeWhile isLetter) := if_pos h

theorem read_of_isDigit (h : c.isDigit = true) (rest : List Char) :
    read c rest = ⟨.int, (c :: rest).takeWhile Char.isDigit⟩ := by
  have letter : ¬ isLetter c = true := fun hl => by simp [isDigit_of_isLetter hl] at h
  exact (if_neg letter).trans (if_pos h)

/-- The text of a word decides its kind. -/
theorem ofWord_text (h : IsLexeme l) (word : l.kind.isWord = true) : ofWord l.text = l := by
  cases h with
  | keyword h => simp [ofWord, Kind.ofWord?_text h]
  | ident _ _ free =>
    have none : Kind.ofWord? (String.ofList _) = none := Kind.ofWord?_eq_none.mpr
      fun kind hk same => free kind hk (by rw [← same, String.toList_ofList])
    simp [ofWord, none]
  | mark h => simp [Kind.isWord_of_isMark h] at word
  | int | illegal => cases word

theorem isLexeme_ofWord {word : List Char} (nonempty : word ≠ [])
    (letters : ∀ c ∈ word, isLetter c = true) : IsLexeme (ofWord word) := by
  cases h : Kind.ofWord? (String.ofList word) with
  | none =>
    rw [ofWord, h]
    refine .ident nonempty letters fun kind hk same => ?_
    exact Kind.ofWord?_eq_none.mp h kind hk (by rw [same, String.ofList_toList])
  | some kind =>
    obtain ⟨hk, same⟩ := Kind.text_of_ofWord? h
    rw [ofWord, h, ← String.toList_ofList (l := word), same]
    exact .keyword hk

end Lexeme

theorem IsLexeme.isLetter_of_mem {l : Lexeme} (h : IsLexeme l) (word : l.kind.isWord = true) :
    ∀ c ∈ l.text, isLetter c = true := by
  cases h with
  | keyword h => exact Kind.isLetter_of_mem_text h
  | ident _ letters => exact letters
  | mark h => simp [Kind.isWord_of_isMark h] at word
  | int | illegal => cases word

theorem IsLexeme.isDigit_of_mem {l : Lexeme} (h : IsLexeme l) (number : l.kind = .int) :
    ∀ c ∈ l.text, c.isDigit = true := by
  cases h with
  | int _ decimal => exact decimal
  | keyword h | mark h =>
    obtain rfl : _ = Kind.int := number
    cases h
  | ident | illegal => cases number

namespace Lexeme

variable {l : Lexeme} {c : Char} {cs : List Char}

theorem read_eq_iff_of_isWord (h : IsLexeme l) (word : l.kind.isWord = true)
    (start : l.text = c :: cs) (rest : List Char) :
    read c (cs ++ rest) = l ↔ l.StopsAt rest := by
  have letters := h.isLetter_of_mem word
  have first : isLetter c = true := letters c (by simp [start])
  have taken : read c (cs ++ rest) = ofWord ((l.text ++ rest).takeWhile isLetter) := by
    rw [read_of_isLetter first, start, List.cons_append]
  have stops : l.StopsAt rest ↔ ∀ c ∈ rest.head?, ¬ isLetter c = true := by
    simp [StopsAt, Continues, word, Kind.ne_of_isWord word]
  rw [taken, stops, ← takeWhile_append_eq_self letters]
  constructor
  · intro same
    exact congrArg Lexeme.text same
  · intro same
    rw [same, ofWord_text h word]

theorem read_eq_iff_of_int {digits : List Char} (decimal : ∀ c ∈ digits, c.isDigit = true)
    (start : digits = c :: cs) (rest : List Char) :
    read c (cs ++ rest) = ⟨.int, digits⟩ ↔ StopsAt ⟨.int, digits⟩ rest := by
  have first : c.isDigit = true := decimal c (by simp [start])
  have taken : read c (cs ++ rest) = ⟨.int, (digits ++ rest).takeWhile Char.isDigit⟩ := by
    rw [read_of_isDigit first, start, List.cons_append]
  have stops : StopsAt ⟨.int, digits⟩ rest ↔ ∀ c ∈ rest.head?, ¬ c.isDigit = true := by
    simp [StopsAt, Continues, Kind.isWord, Kind.isKeyword]
  rw [taken, stops, ← takeWhile_append_eq_self decimal]
  simp

/-- Only `=` and `!` look at the character behind them. -/
theorem read_eq_iff_of_isMark {kind : Kind} (h : kind.isMark = true)
    (start : kind.text.toList = c :: cs) (rest : List Char) :
    read c (cs ++ rest) = ⟨kind, kind.text.toList⟩ ↔ StopsAt ⟨kind, kind.text.toList⟩ rest := by
  have continues : ∀ d, Continues ⟨kind, kind.text.toList⟩ d ↔
      (kind = .assign ∨ kind = .bang) ∧ d = '=' := by
    have other : kind.isWord = false ∧ kind ≠ .int := by
      revert h
      cases kind <;> decide
    intro d
    simp [Continues, other]
  simp only [StopsAt, continues]
  cases kind with
  | assign | bang =>
    simp only [Kind.text, String.reduceToList, List.cons.injEq] at start
    obtain ⟨rfl, rfl⟩ := start
    cases rest with
    | nil => simp [read, isLetter, Kind.text]
    | cons d rest =>
      by_cases hd : d = '=' <;> simp [read, isLetter, Kind.text, hd]
  | eof | illegal | ident | int | function | letWord | trueWord | falseWord | ifWord
  | elseWord | returnWord => cases h
  | _ =>
    simp only [Kind.text, String.reduceToList, List.cons.injEq] at start
    obtain ⟨rfl, rfl⟩ := start
    simp [read, isLetter, Kind.text]

/-- A character that is neither letter nor digit opens an operator or a delimiter, or
stands alone. -/
theorem read_of_not_isLetter_isDigit (letter : isLetter c = false) (digit : c.isDigit = false)
    (rest : List Char) :
    (∃ kind : Kind, kind.isMark = true ∧ c ∈ kind.text.toList ∧
      read c rest = ⟨kind, kind.text.toList⟩) ∨
    ((∀ kind : Kind, kind.isMark = true → c ∉ kind.text.toList) ∧
      read c rest = ⟨.illegal, [c]⟩) := by
  unfold read
  rw [if_neg (by simp [letter]), if_neg (by simp [digit])]
  split
  case h_17 =>
    refine .inr ⟨?_, rfl⟩
    intro kind h
    cases kind <;> simp_all [Kind.text, Kind.isMark]
  all_goals exact .inl ⟨_, by decide, by decide, rfl⟩

/-- In front of any text, a lexeme is read as itself exactly when the text does not
carry it on. -/
theorem read_eq_iff (h : IsLexeme l) (start : l.text = c :: cs) (rest : List Char) :
    read c (cs ++ rest) = l ↔ l.StopsAt rest := by
  cases h with
  | keyword hk => exact read_eq_iff_of_isWord (.keyword hk) (Kind.isWord_of_isKeyword hk) start rest
  | ident nonempty letters free =>
    exact read_eq_iff_of_isWord (.ident nonempty letters free) rfl start rest
  | int _ decimal => exact read_eq_iff_of_int decimal start rest
  | mark hk => exact read_eq_iff_of_isMark hk start rest
  | illegal foreign =>
    cases start
    obtain ⟨_, letter, digit, marks⟩ := foreign
    have stops : StopsAt ⟨.illegal, [c]⟩ rest := by
      simp [StopsAt, Continues, Kind.isWord, Kind.isKeyword]
    refine iff_of_true ?_ stops
    rcases read_of_not_isLetter_isDigit letter digit rest with ⟨kind, hk, hc, _⟩ | ⟨_, same⟩
    · exact absurd hc (marks kind hk)
    · exact same

/-- What is read from a character that is not blank is a lexeme. -/
theorem isLexeme_read (h : isBlank c = false) (rest : List Char) : IsLexeme (read c rest) := by
  by_cases letter : isLetter c = true
  · rw [read_of_isLetter letter]
    exact isLexeme_ofWord (by simp [letter]) fun d hd => List.mem_takeWhile_imp hd
  · by_cases digit : c.isDigit = true
    · rw [read_of_isDigit digit]
      exact .int (by simp [digit]) fun d hd => List.mem_takeWhile_imp hd
    · rw [Bool.not_eq_true] at letter digit
      rcases read_of_not_isLetter_isDigit letter digit rest with ⟨kind, hk, _, same⟩ | ⟨none, same⟩
      · rw [same]
        exact .mark hk
      · rw [same]
        exact .illegal ⟨h, letter, digit, none⟩

/-- A lexeme is the beginning of the text that it is read from. -/
theorem text_read_prefix (c : Char) (rest : List Char) : (read c rest).text <+: c :: rest := by
  unfold read
  split
  · exact List.takeWhile_prefix _
  · split
    · exact List.takeWhile_prefix _
    · split <;> simp

/-- Reading takes a lexeme off the text and stops where the remaining text does not
carry it on. -/
theorem exists_read (h : isBlank c = false) (rest : List Char) :
    ∃ l more, IsLexeme l ∧ l.StopsAt more ∧ c :: rest = l.text ++ more ∧ read c rest = l := by
  obtain ⟨more, split⟩ := text_read_prefix c rest
  have lexeme := isLexeme_read h rest
  refine ⟨read c rest, more, lexeme, ?_, split.symm, rfl⟩
  obtain ⟨d, cs, start⟩ := List.exists_cons_of_ne_nil lexeme.text_ne_nil
  rw [start, List.cons_append, List.cons.injEq] at split
  obtain ⟨rfl, split⟩ := split
  rw [← read_eq_iff lexeme start, split]

end Lexeme

/-! ## What a lexeme starts with -/

namespace IsLexeme

variable {l : Lexeme} {c : Char}

/-- The first character of a lexeme tells words, numbers and equals signs apart. -/
theorem class_of_head (h : IsLexeme l) (head : c ∈ l.text.head?) :
    isLetter c = l.kind.isWord ∧ (c.isDigit = true ↔ l.kind = .int) ∧
      (c = '=' ↔ l.kind = .assign ∨ l.kind = .eq) := by
  have mem : c ∈ l.text := List.mem_of_mem_head? head
  by_cases word : l.kind.isWord = true
  · have letter := h.isLetter_of_mem word c mem
    have sign : c ≠ '=' := by
      rintro rfl
      exact absurd letter (by decide)
    have kinds := Kind.ne_of_isWord word
    simp [letter, word, isDigit_of_isLetter letter, sign, kinds]
  · cases h with
    | keyword hk => exact absurd (Kind.isWord_of_isKeyword hk) word
    | ident => exact absurd rfl word
    | int _ decimal =>
      have digit := decimal c mem
      have letter : isLetter c = false :=
        Bool.eq_false_iff.mpr fun hl => by simp [isDigit_of_isLetter hl] at digit
      have sign : c ≠ '=' := by
        rintro rfl
        exact absurd digit (by decide)
      simp [letter, digit, sign, Kind.isWord, Kind.isKeyword]
    | @mark kind hk =>
      obtain ⟨letter, digit, sign⟩ := Kind.head_of_isMark hk c head
      have other : kind ≠ .int := fun same => by simp [same, Kind.isMark] at hk
      simp [letter, digit, sign, other, Kind.isWord_of_isMark hk]
    | illegal foreign =>
      obtain rfl := List.mem_singleton.mp mem
      obtain ⟨_, letter, digit, marks⟩ := foreign
      have sign : c ≠ '=' := by
        rintro rfl
        exact marks .assign rfl (by decide)
      simp [letter, digit, sign, Kind.isWord, Kind.isKeyword]

/-- The first character of a lexeme shows which lexemes it carries on. -/
theorem continues_iff_glues (h : IsLexeme l) (head : c ∈ l.text.head?) (a : Lexeme) :
    a.Continues c ↔ a.Glues l := by
  obtain ⟨letter, digit, sign⟩ := h.class_of_head head
  simp only [Lexeme.Continues, Lexeme.Glues, letter, digit, sign]

end IsLexeme

theorem Lexeme.stopsAt_of_isBlank (a : Lexeme) {rest : List Char}
    (h : ∀ c ∈ rest.head?, isBlank c = true) : a.StopsAt rest := by
  intro c hc
  have blank := h c hc
  rintro (⟨_, letter⟩ | ⟨_, digit⟩ | ⟨_, rfl⟩)
  · simp [isLetter_of_isBlank blank] at letter
  · simp [isDigit_of_isBlank blank] at digit
  · cases blank

end Monkey
