import Monkey.Proofs.Lexer.Machine
import Monkey.Proofs.Lexer.Requests

/-! # The lexer step by step

A stepper that does not hold the rest of its text: it has the character in hand, the indices of
that character and of the one behind it, and the place that it has counted, all in registers. One
step moves them, and each loop steps for as long as the character in hand is of its class. Main
statement: on a text of at most `2 ^ 32 - 2` characters every loop ends, nothing overflows, and
the stepper answers what the lexer answers. -/

namespace Monkey

/-- A computation that may go on for ever or have a fault. -/
abbrev Steps := ExceptT Fault Option

/-! ## Registers -/

structure Registers where
  /-- The index of the character in hand. -/
  index : Nat
  /-- The index of the character that comes in hand next. -/
  nextIndex : Nat
  /-- The character in hand, none behind the end of the text. -/
  current : Option Char
  /-- The place of the character in hand. -/
  place : Position
deriving DecidableEq

namespace Registers

/-- Before the first character is taken in hand. -/
def blank : Registers := ⟨0, 0, none, .first⟩

/-- Counts the character in hand and takes up the next one. Nothing in it stops at the end of the
text. -/
def step (chars : List Char) (r : Registers) : Except Fault Registers := do
  let place ← match r.current with
    | none => pure r.place
    | some c => r.place.afterInWords c
  let nextIndex ← addInWord 64 r.nextIndex 1
  return ⟨r.nextIndex, nextIndex, chars[r.nextIndex]?, place⟩

end Registers

/-! ## The stepper -/

structure Stepper where
  source : String
  chars : List Char
  registers : Registers
  file : FileId
  diagnostics : Diagnostics
  /-- The registers before each step since the first character was taken in hand. Nothing reads
  them. -/
  trail : List Registers

namespace Stepper

/-- The stepper with the first character of a text in hand. -/
def ofText (source : String) (file : FileId) : Steps Stepper := do
  let registers ← ofExcept (Registers.blank.step source.toList)
  return ⟨source, source.toList, registers, file, #[], []⟩

def step (m : Stepper) : Steps Stepper := do
  let registers ← ofExcept (m.registers.step m.chars)
  return { m with registers, trail := m.trail ++ [m.registers] }

/-- The character behind the one in hand. -/
def peek (m : Stepper) : Option Char := m.chars[m.registers.nextIndex]?

/-- Steps for as long as the character in hand is of a class. -/
def stepWhile (p : Char → Bool) (m : Stepper) : Steps Stepper :=
  match m.registers.current with
  | none => return m
  | some c =>
    if p c then do
      let next ← m.step
      next |>.stepWhile p
    else return m
partial_fixpoint

/-- The text between a place and the character in hand. -/
def literalFrom (m : Stepper) (start : Position) : Steps String :=
  ofExcept (slice m.source start.offset m.registers.place.offset)

def spanFrom (m : Stepper) (start : Position) : Span := ⟨start, m.registers.place, m.file⟩

/-! ### Tokens -/

/-- Reads a run of characters of a class, whose text decides the kind. -/
def readRun (p : Char → Bool) (kind : String → Kind) (m : Stepper) : Steps (Token × Stepper) := do
  let start := m.registers.place
  let behind ← m.stepWhile p
  let literal ← behind.literalFrom start
  return (⟨kind literal, literal, behind.spanFrom start⟩, behind)

/-- The kind of the operator or delimiter that a character opens. A second character of it is taken
in hand. -/
def markKind (c : Char) (m : Stepper) : Steps (Kind × Stepper) :=
  match c with
  | '=' => if m.peek = some '=' then return (.eq, ← m.step) else return (.assign, m)
  | '!' => if m.peek = some '=' then return (.notEq, ← m.step) else return (.bang, m)
  | '+' => return (.plus, m)
  | '-' => return (.minus, m)
  | '*' => return (.asterisk, m)
  | '/' => return (.slash, m)
  | '<' => return (.lt, m)
  | '>' => return (.gt, m)
  | ',' => return (.comma, m)
  | ';' => return (.semicolon, m)
  | '(' => return (.lparen, m)
  | ')' => return (.rparen, m)
  | '\x7b' => return (.lbrace, m)
  | '\x7d' => return (.rbrace, m)
  | _ => return (.illegal, m)

/-- Records a character that starts no token. -/
def record (c : Char) (span : Span) (m : Stepper) : Stepper :=
  let diagnostic := Diagnostic.error s!"illegal character '{c}'"
    |>.withCode .illegalCharacter
    |>.withLabel span "not part of the Monkey language"
  { m with diagnostics := m.diagnostics.push diagnostic }

/-- The token of a mark that has been passed, which is recorded if it is illegal. -/
def closeMark (c : Char) (kind : Kind) (start : Position) (m : Stepper) :
    Steps (Token × Stepper) := do
  let span := m.spanFrom start
  let recorded := if kind = .illegal then m.record c span else m
  let literal ← recorded.literalFrom start
  return (⟨kind, literal, span⟩, recorded)

/-- Reads an operator, a delimiter or a character that starts no token. -/
def readMark (c : Char) (m : Stepper) : Steps (Token × Stepper) := do
  let mark ← m.markKind c
  let behind ← mark.2.step
  behind.closeMark c mark.1 m.registers.place

/-- Reads the token that the character in hand opens. -/
def readToken (m : Stepper) : Steps (Token × Stepper) :=
  match m.registers.current with
  | none => return (⟨.eof, "", .point m.registers.place m.file⟩, m)
  | some c =>
    if isLetter c then m.readRun isLetter fun word => (Kind.ofWord? word).getD .ident
    else if c.isDigit then m.readRun Char.isDigit fun _ => .int
    else m.readMark c

def next (m : Stepper) : Steps (Token × Stepper) := do
  let start ← m.stepWhile isBlank
  start.readToken

/-- Reads tokens up to and including the end of the text. -/
def tokenizeFrom (tokens : Array Token) (m : Stepper) : Steps (Array Token × Stepper) := do
  let read ← m.next
  if read.1.kind = .eof then return (tokens.push read.1, read.2)
  else read.2 |>.tokenizeFrom (tokens.push read.1)
partial_fixpoint

/-! ### Requests -/

def answer (m : Stepper) : Lexer.Request → Steps (Lexer.Reply × Stepper)
  | .next => do
    let read ← m.next
    return (.token read.1, read.2)
  | .tokenize => do
    let read ← m.tokenizeFrom #[]
    return (.tokens read.1, read.2)
  | .diagnostics => return (.diagnostics m.diagnostics, m)
  | .takeDiagnostics => return (.diagnostics m.diagnostics, { m with diagnostics := #[] })

/-- Answers requests one after the other. -/
def answerAll (m : Stepper) : List Lexer.Request → Steps (List Lexer.Reply × Stepper)
  | [] => return ([], m)
  | request :: requests => do
    let first ← m.answer request
    let others ← first.2.answerAll requests
    return (first.1 :: others.1, others.2)

/-- Answers requests from the start of a text on. -/
def run (source : String) (file : FileId) (requests : List Lexer.Request) :
    Steps (List Lexer.Reply × Stepper) := do
  let start ← ofText source file
  start.answerAll requests

end Stepper

/-! ## The registers of a cursor -/

/-- The registers that stand where a cursor does. -/
def Cursor.registers (c : Cursor) : Registers := ⟨c.index, c.nextIndex, c.rest.head?, c.position⟩

namespace Registers

/-- The registers with the character of an index in hand. -/
def before (chars : List Char) (i : Nat) : Registers :=
  (Cursor.between (chars.take i) (chars.drop i)).registers

theorem before_length (passed rest : List Char) :
    before (passed ++ rest) passed.length = (Cursor.between passed rest).registers := by
  rw [before, List.take_left, List.drop_left]

theorem step_blank (chars : List Char) :
    blank.step chars = .ok (Cursor.between [] chars).registers := by
  cases chars <;> rfl

/-- The character behind the one that follows a part of a text. -/
theorem getElem?_behind (passed rest : List Char) (c : Char) :
    (passed ++ c :: rest)[passed.length + 1]? = rest.head? := by
  simp [List.getElem?_append_right, List.head?_eq_getElem?]

/-- A step over a character in hand moves on to the next one. -/
theorem step_between {passed rest : List Char} {c : Char}
    (short : (passed ++ [c]).length ≤ Position.textLimit) :
    (Cursor.between passed (c :: rest)).registers.step (passed ++ c :: rest) =
      .ok (Cursor.between (passed ++ [c]) rest).registers := by
  have fits := Position.fitsWords_afterText short
  rw [Position.afterText_append, Position.afterText_cons, Position.afterText_nil] at fits
  have place := Position.afterInWords_eq fits
  rw [List.length_append, List.length_singleton, Position.textLimit] at short
  have nextIndex : addInWord 64 (passed.length + 1) 1 = .ok (passed.length + 2) :=
    addInWord_eq (by omega)
  simp only [step, Cursor.registers, Cursor.between, Cursor.nextIndex, List.head?_cons, place,
    nextIndex, getElem?_behind, bind, Except.bind]
  rw [Position.afterText_append, List.length_append]
  rfl

end Registers

namespace Lexer

/-- The stepper that stands where a lexer of a text does, having come there step by step. -/
def stepper (source : String) (lexer : Lexer) : Stepper where
  source
  chars := source.toList
  registers := lexer.cursor.registers
  file := lexer.file
  diagnostics := lexer.diagnostics
  trail := (List.range lexer.cursor.index).map (Registers.before source.toList)

/-- The token of a lexeme behind a part of the text, and the stepper that has read it. -/
def readAt (source : String) (lexer : Lexer) (l : Lexeme) (passed rest : List Char) :
    Token × Stepper :=
  let token := l.tokenBehind passed lexer.file
  (token, ((lexer.movedTo (passed ++ l.text) rest).recording token).stepper source)

/-- A token of the language leaves no record. -/
theorem recording_of_ne {t : Token} (legal : t.kind ≠ .illegal) (lexer : Lexer) :
    lexer.recording t = lexer := by
  have notIllegal : ¬ t.isIllegal = true := fun same => legal (beq_iff_eq.mp same)
  rw [recording, if_neg notIllegal]

end Lexer

namespace Stepper

theorem ofText_eq (source : String) (file : FileId) :
    ofText source file = pure ((Lexer.ofText source file).stepper source) := by
  rw [ofText, Registers.step_blank]
  rfl

section

variable {source : String} (lexer : Lexer) {passed text rest : List Char}

theorem peek_movedTo {c : Char} (split : source.toList = passed ++ c :: rest) :
    ((lexer.movedTo passed (c :: rest)).stepper source).peek = rest.head? := by
  show source.toList[passed.length + 1]? = _
  rw [split, Registers.getElem?_behind]

theorem literalFrom_movedTo (split : source.toList = passed ++ text ++ rest) :
    ((lexer.movedTo (passed ++ text) rest).stepper source).literalFrom
      (Position.first.afterText passed) = pure (String.ofList text) := by
  show ofExcept (slice source _ _) = _
  dsimp only [Lexer.stepper, Lexer.movedTo, Cursor.registers, Cursor.between]
  rw [slice_afterText split]
  rfl

theorem closeMark_movedTo {l : Lexeme} {c : Char} (split : source.toList = passed ++ l.text ++ rest)
    (single : l.kind = .illegal → l.text = [c]) :
    ((lexer.movedTo (passed ++ l.text) rest).stepper source).closeMark c l.kind
      (Position.first.afterText passed) = pure (lexer.readAt source l passed rest) := by
  have literal := literalFrom_movedTo lexer split
  by_cases illegal : l.kind = .illegal
  · have isIllegal : (l.tokenBehind passed lexer.file).isIllegal = true := beq_iff_eq.mpr illegal
    have character : String.ofList l.text = c.toString := by
      rw [single illegal]
      rfl
    simp only [closeMark, if_pos illegal]
    show (do
      let literal ← literalFrom ((lexer.movedTo (passed ++ l.text) rest).stepper source) _
      pure _) = _
    rw [literal, pure_bind, Lexer.readAt, Lexer.recording, if_pos isIllegal, Token.illegalCharacter]
    simp only [Lexeme.tokenBehind, character]
    rfl
  · simp only [closeMark, if_neg illegal, literal, pure_bind]
    rw [Lexer.readAt, Lexer.recording_of_ne illegal]
    rfl

/-! ## Steps on a short text -/

variable (short : source.length ≤ Position.textLimit)

include short

theorem step_movedTo {c : Char} (split : source.toList = passed ++ c :: rest) :
    ((lexer.movedTo passed (c :: rest)).stepper source).step =
      pure ((lexer.movedTo (passed ++ [c]) rest).stepper source) := by
  have inText : (passed ++ [c]).length ≤ Position.textLimit := by
    rw [← String.length_toList, split] at short
    simp only [List.length_append, List.length_cons, List.length_nil] at short ⊢
    omega
  have registers : (Cursor.between passed (c :: rest)).registers.step source.toList =
      .ok (Cursor.between (passed ++ [c]) rest).registers := by
    rw [split]
    exact Registers.step_between inText
  have here : Registers.before source.toList passed.length =
      (Cursor.between passed (c :: rest)).registers := by
    rw [split, Registers.before_length]
  have trail : (List.range (passed ++ [c]).length).map (Registers.before source.toList) =
      (List.range passed.length).map (Registers.before source.toList) ++
        [(Cursor.between passed (c :: rest)).registers] := by
    rw [List.length_append, List.length_singleton, List.range_succ, List.map_append, ← here]
    rfl
  simp only [step, Lexer.stepper, Lexer.movedTo, registers]
  dsimp only [Cursor.between] at trail ⊢
  rw [trail]
  rfl

/-- A loop steps over a run of its class and stops behind it. -/
theorem stepWhile_movedTo {p : Char → Bool} (split : source.toList = passed ++ text ++ rest)
    (run : ∀ c ∈ text, p c = true) (stop : ∀ c ∈ rest.head?, ¬ p c = true) :
    ((lexer.movedTo passed (text ++ rest)).stepper source).stepWhile p =
      pure ((lexer.movedTo (passed ++ text) rest).stepper source) := by
  induction text generalizing passed with
  | nil =>
    rw [stepWhile]
    cases rest with
    | nil => simp [Lexer.stepper, Lexer.movedTo, Cursor.registers]
    | cons c rest =>
      have other := stop c rfl
      simp [Lexer.stepper, Lexer.movedTo, Cursor.registers, other]
  | cons c text ih =>
    have first : p c = true := run c List.mem_cons_self
    have here : source.toList = passed ++ c :: (text ++ rest) := by simpa using split
    rw [stepWhile]
    show (if p c then _ else _) = _
    rw [if_pos first, List.cons_append, step_movedTo lexer short here, pure_bind,
      ih (by simpa using split) fun d mem => run d (List.mem_cons_of_mem _ mem)]
    simp

/-! ## One token -/

theorem readRun_movedTo {p : Char → Bool} {l : Lexeme} {kind : String → Kind}
    (split : source.toList = passed ++ l.text ++ rest) (run : ∀ c ∈ l.text, p c = true)
    (stop : ∀ c ∈ rest.head?, ¬ p c = true) (kinds : kind (String.ofList l.text) = l.kind)
    (legal : l.kind ≠ .illegal) :
    ((lexer.movedTo passed (l.text ++ rest)).stepper source).readRun p kind =
      pure (lexer.readAt source l passed rest) := by
  rw [readRun, stepWhile_movedTo lexer short split run stop, pure_bind, Lexer.readAt,
    Lexer.recording_of_ne legal]
  show (do
    let literal ← literalFrom _ (Position.first.afterText passed)
    pure _) = _
  rw [literalFrom_movedTo lexer split, pure_bind, kinds]
  rfl

/-- A mark leaves its last character in hand. -/
theorem markKind_movedTo {c : Char} (letter : isLetter c = false) (digit : c.isDigit = false)
    (split : source.toList = passed ++ c :: rest) :
    ∃ front last more, c :: rest = front ++ last :: more ∧
      (Lexeme.read c rest).text = front ++ [last] ∧
      ((lexer.movedTo passed (c :: rest)).stepper source).markKind c =
        pure ((Lexeme.read c rest).kind,
          (lexer.movedTo (passed ++ front) (last :: more)).stepper source) := by
  have peek := peek_movedTo lexer split
  unfold Lexeme.read
  rw [if_neg (by simp [letter]), if_neg (by simp [digit])]
  -- The rows of the reader: `==` and `!=`, then `=` and `!` alone, and last no mark at all.
  split
  case h_1 more | h_2 more =>
    refine ⟨[_], '=', more, rfl, rfl, ?_⟩
    rw [List.head?_cons] at peek
    rw [markKind, if_pos peek, step_movedTo lexer short split]
    rfl
  case h_3 other | h_4 other =>
    refine ⟨[], _, rest, rfl, rfl, ?_⟩
    have single : rest.head? ≠ some '=' := fun head => other _ (List.eq_cons_of_mem_head? head)
    rw [markKind, if_neg (peek ▸ single), List.append_nil]
  case h_17 =>
    refine ⟨[], c, rest, rfl, rfl, ?_⟩
    rw [List.append_nil]
    unfold markKind
    split
    case h_15 => rfl
    all_goals contradiction
  all_goals exact ⟨[], _, rest, rfl, rfl, by rw [List.append_nil]; rfl⟩

theorem readMark_movedTo {l : Lexeme} {c : Char} {cs : List Char} (text : l.text = c :: cs)
    (split : source.toList = passed ++ l.text ++ rest) (read : Lexeme.read c (cs ++ rest) = l)
    (letter : isLetter c = false) (digit : c.isDigit = false) :
    ((lexer.movedTo passed (l.text ++ rest)).stepper source).readMark c =
      pure (lexer.readAt source l passed rest) := by
  have whole : l.text ++ rest = c :: (cs ++ rest) := by rw [text, List.cons_append]
  have here : source.toList = passed ++ c :: (cs ++ rest) := by
    rw [split, List.append_assoc, whole]
  obtain ⟨front, last, more, parts, ends, kind⟩ :=
    markKind_movedTo lexer short letter digit here
  rw [read] at ends kind
  have behind : last :: rest = last :: more := by
    rw [← whole, ends, List.append_assoc] at parts
    exact List.append_cancel_left parts
  rw [← behind, ← whole] at kind
  have single : l.kind = .illegal → l.text = [c] := by
    intro illegal
    rcases Lexeme.read_of_not_isLetter_isDigit letter digit (cs ++ rest) with
      ⟨kind, mark, _, same⟩ | ⟨_, same⟩
    · obtain rfl : kind = .illegal := (congrArg Lexeme.kind (same.symm.trans read)).trans illegal
      cases mark
    · exact congrArg Lexeme.text (read.symm.trans same)
  rw [readMark, kind, pure_bind]
  dsimp only
  rw [step_movedTo lexer short (by rw [split, ends]; simp), pure_bind, List.append_assoc, ← ends]
  exact closeMark_movedTo lexer split single

theorem readToken_movedTo {l : Lexeme} (split : source.toList = passed ++ l.text ++ rest)
    (lexeme : IsLexeme l) (stops : l.StopsAt rest) :
    ((lexer.movedTo passed (l.text ++ rest)).stepper source).readToken =
      pure (lexer.readAt source l passed rest) := by
  obtain ⟨c, cs, text⟩ := List.exists_cons_of_ne_nil lexeme.text_ne_nil
  have head : c ∈ l.text.head? := by simp [text]
  obtain ⟨letter, digit, _⟩ := lexeme.class_of_head head
  have current : ((lexer.movedTo passed (l.text ++ rest)).stepper source).registers.current =
      some c := by
    rw [text]
    rfl
  simp only [readToken, current]
  by_cases word : l.kind.isWord = true
  · have legal : l.kind ≠ .illegal := by
      intro same
      simp [same, Kind.isWord, Kind.isKeyword] at word
    have stop : ∀ d ∈ rest.head?, ¬ isLetter d = true :=
      fun d mem same => stops d mem (.inl ⟨word, same⟩)
    have kind : (Kind.ofWord? (String.ofList l.text)).getD .ident = l.kind :=
      congrArg Lexeme.kind (Lexeme.ofWord_text lexeme word)
    rw [if_pos (letter.trans word)]
    exact readRun_movedTo lexer short split (lexeme.isLetter_of_mem word) stop kind legal
  · rw [if_neg (letter ▸ word)]
    by_cases number : l.kind = .int
    · have legal : l.kind ≠ .illegal := by simp [number]
      have stop : ∀ d ∈ rest.head?, ¬ d.isDigit = true :=
        fun d mem same => stops d mem (.inr (.inl ⟨number, same⟩))
      rw [if_pos (digit.mpr number)]
      exact readRun_movedTo lexer short split (lexeme.isDigit_of_mem number) stop number.symm legal
    · have read : Lexeme.read c (cs ++ rest) = l := (Lexeme.read_eq_iff lexeme text rest).mpr stops
      have noLetter : isLetter c = false := letter.trans (Bool.not_eq_true _ ▸ word)
      have noDigit : ¬ c.isDigit = true := fun same => number (digit.mp same)
      rw [if_neg noDigit]
      exact readMark_movedTo lexer short text split read noLetter (Bool.not_eq_true _ ▸ noDigit)

end

/-! ## Runs -/

section

variable {source : String} {lexer : Lexer} {file : FileId}
  (short : source.length ≤ Position.textLimit) (h : lexer.StandsIn source.toList file)

include short h

/-- The stepper reads the token that the lexer reads, and comes to stand where it does. -/
theorem next_eq :
    (lexer.stepper source).next = pure (lexer.next.1, lexer.next.2.stepper source) := by
  obtain ⟨passed, rest, split, cursor⟩ := h.split
  have here : lexer.movedTo passed rest = lexer := by rw [Lexer.movedTo, ← cursor]
  rcases Lexer.next_cases cursor with
    ⟨blank, read⟩ | ⟨gap, l, more, rfl, blank, lexeme, stops, read⟩
  · have toEnd : source.toList = passed ++ rest ++ [] := by simpa using split
    have start := stepWhile_movedTo lexer short toEnd blank (by simp)
    rw [List.append_nil, here] at start
    rw [read, next, start, pure_bind]
    rfl
  · have parts : source.toList = passed ++ gap ++ (l.text ++ more) := by simpa using split
    have notBlank : ∀ c ∈ (l.text ++ more).head?, ¬ isBlank c = true := by
      obtain ⟨c, cs, text⟩ := List.exists_cons_of_ne_nil lexeme.text_ne_nil
      simpa [text] using lexeme.isBlank_of_mem c (by simp [text])
    have start := stepWhile_movedTo lexer short parts blank notBlank
    rw [← List.append_assoc, here] at start
    rw [read, next, start, pure_bind]
    exact readToken_movedTo lexer short (by simpa using split) lexeme stops

theorem tokenizeFrom_eq (tokens : Array Token) :
    (lexer.stepper source).tokenizeFrom tokens =
      pure ((lexer.tokenizeFrom tokens).1, (lexer.tokenizeFrom tokens).2.stepper source) := by
  induction lexer using Lexer.next_induction generalizing tokens with
  | finish lexer eof =>
    rw [tokenizeFrom, next_eq short h, pure_bind, if_pos eof, Lexer.tokenizeFrom, if_pos eof]
  | token lexer more ih =>
    rw [tokenizeFrom, next_eq short h, pure_bind, if_neg more, Lexer.tokenizeFrom, if_neg more]
    exact ih h.next _

theorem answer_eq (request : Lexer.Request) :
    (lexer.stepper source).answer request =
      pure ((lexer.answer request).1, (lexer.answer request).2.stepper source) := by
  cases request with
  | next =>
    rw [answer, next_eq short h, pure_bind]
    rfl
  | tokenize =>
    rw [answer, tokenizeFrom_eq short h, pure_bind]
    rfl
  | diagnostics | takeDiagnostics => rfl

/-- Whatever is asked of it, the stepper replies as the lexer does. -/
theorem answerAll_eq (requests : List Lexer.Request) :
    (lexer.stepper source).answerAll requests =
      pure (lexer.replies requests, (lexer.after requests).stepper source) := by
  induction requests generalizing lexer with
  | nil => rfl
  | cons request requests ih =>
    rw [answerAll, answer_eq short h, pure_bind, ih (h.answer request), pure_bind]
    rfl

end

end Stepper

end Monkey
