import Monkey.Proofs.Command.Input
import Monkey.Proofs.Command.Reports
import Monkey.Proofs.Parser.Relocation

/-! # Reading line by line

The interactive loop reads each line as a text of its own and answers it before the next one.
Main statement: where each line but the last one ends with a semicolon, the lines give what the
whole text gives, at places moved by the lines before. -/

namespace Monkey.Command

open String (utf8Len)

/-! ## Lines of a text -/

/-- A line of a text, with the number of the lines before it and of their bytes. -/
structure Line where
  number : Nat
  start : Nat
  text : String
deriving DecidableEq

namespace Line

/-- Lines one behind the other, from a number and a byte offset on. -/
def place (number start : Nat) : List String → List Line
  | [] => []
  | text :: more => ⟨number, start, text⟩ :: place (number + 1) (start + text.utf8ByteSize) more

/-- The place in the whole text of a place in the line. -/
def moved (line : Line) : Span → Span := Span.moved line.number line.start

def tokens (line : Line) : List Token := (tokenize line.text 0).1.toList

theorem exists_tokens_eq (line : Line) :
    ∃ init last, line.tokens = init ++ [last] ∧ last.kind = .eof := by
  obtain ⟨init, last, same, _, eof⟩ := (Lexer.ofText line.text 0).exists_stream_eq
  exact ⟨init, last, same, eof⟩

/-- The tokens of lines as those of one text: only the last line keeps its end. -/
def join : List Line → List Token
  | [] => []
  | [line] => line.tokens.map (Token.relocate line.moved)
  | line :: next :: more =>
    line.tokens.dropLast.map (Token.relocate line.moved) ++ join (next :: more)

end Line

/-- The lines of a text at their places. -/
def linesOf (source : String) : List Line := Line.place 0 0 (textLines source)

theorem text_linesOf (source : String) : (linesOf source).map Line.text = textLines source := by
  have each : ∀ (texts : List String) number start,
      (Line.place number start texts).map Line.text = texts := by
    intro texts
    induction texts with
    | nil => exact fun _ _ => rfl
    | cons text texts ih => exact fun _ _ => congrArg (text :: ·) (ih _ _)
  exact each (textLines source) 0 0

/-! ## Tokens of the lines -/

/-- Behind whole lines, whole lines are scanned one after the other. -/
theorem scan_join {texts : List (List Char)} (nonempty : texts ≠ [])
    (whole : ∀ text ∈ texts.dropLast, ∃ body, text = body ++ ['\n'] ∧ '\n' ∉ body)
    {front : List Char} (ends : EndsLine front) :
    Scan 0 front texts.flatten
      (Line.join (Line.place (front.count '\n') (utf8Len front) (texts.map String.ofList))) := by
  induction texts generalizing front with
  | nil => exact absurd rfl nonempty
  | cons text more ih =>
    have scan := (scan_tokenize (String.ofList text) 0).moved ends
    rw [List.append_nil, String.toList_ofList] at scan
    cases more with
    | nil =>
      rw [List.flatten_cons, List.flatten_nil, List.append_nil]
      exact scan
    | cons next more =>
      obtain ⟨body, rfl, free⟩ := whole text List.mem_cons_self
      have lines : (front ++ (body ++ ['\n'])).count '\n' = front.count '\n' + 1 := by
        simp [List.count_eq_zero.mpr free]
      have bytes : utf8Len (front ++ (body ++ ['\n'])) =
          utf8Len front + (String.ofList (body ++ ['\n'])).utf8ByteSize := by
        rw [String.utf8Len_append, String.utf8ByteSize_ofList]
      have ends' : EndsLine (front ++ (body ++ ['\n'])) := by
        rw [← List.append_assoc]
        exact .append _
      have behind := ih (List.cons_ne_nil _ _)
        (fun text mem => whole text (List.mem_cons_of_mem _ mem)) ends'
      rw [lines, bytes] at behind
      -- No lexeme reaches over the cut, since the line ends with a blank.
      have joined := scan.append (fun c isLast => ?_) behind
      · rw [← List.map_dropLast] at joined
        exact joined
      · obtain rfl : c = '\n' := EndsLine.append body c isLast
        rfl

/-- A text has the tokens of its lines. The empty text has no line and the end as its token. -/
theorem tokens_eq_join (source : String) :
    (tokenize source 0).1.toList = Line.join (linesOf source) ∨
      linesOf source = [] ∧ ∃ last : Token, last.kind = .eof ∧
        (tokenize source 0).1.toList = [last] := by
  by_cases empty : source.toList = []
  · obtain rfl : source = "" := String.toList_eq_nil_iff.mp empty
    exact .inr ⟨rfl, _, rfl, (scan_tokenize_iff "" 0 _).mp (.finish isGap_nil)⟩
  · have flatten := flatten_cutBehind (· = '\n') source.toList
    have nonempty : cutBehind (· = '\n') source.toList ≠ [] := by
      intro none
      exact empty (by rw [← flatten, none]; rfl)
    have whole : ∀ text ∈ (cutBehind (· = '\n') source.toList).dropLast,
        ∃ body, text = body ++ ['\n'] ∧ '\n' ∉ body := by
      intro text mem
      obtain ⟨body, c, same, free, isMark⟩ := of_mem_dropLast_cutBehind mem
      refine ⟨body, of_decide_eq_true isMark ▸ same, fun inside => ?_⟩
      simpa using free '\n' inside
    have scan : Scan 0 [] (cutBehind (· = '\n') source.toList).flatten
        (Line.join (linesOf source)) := scan_join nonempty whole nofun
    rw [flatten] at scan
    exact .inl ((scan_tokenize_iff source 0 _).mp scan)

/-! ## Reading the lines -/

section

variable {α : Type} {read : List Token → List α} {relocate : (Span → Span) → α → α}
  (apart : ReadsApart read relocate)

include apart

theorem read_join {lines : List Line}
    (ends : ∀ line ∈ lines.dropLast, EndsStatement line.tokens.dropLast) :
    read (Line.join lines) =
      lines.flatMap fun line => (read line.tokens).map (relocate line.moved) := by
  induction lines with
  | nil => exact apart.nil
  | cons line more ih =>
    cases more with
    | nil =>
      rw [Line.join, apart.map, List.flatMap_cons, List.flatMap_nil, List.append_nil]
    | cons next more =>
      have first := ends line List.mem_cons_self
      have others := ih fun line mem => ends line (List.mem_cons_of_mem _ mem)
      obtain ⟨init, last, same, eof⟩ := line.exists_tokens_eq
      have body : read line.tokens = read line.tokens.dropLast := by
        rw [same, List.dropLast_concat] at first ⊢
        rw [apart.append init [last] first, apart.eof last eof, List.append_nil]
      have first' : EndsStatement (line.tokens.dropLast.map (Token.relocate line.moved)) := by
        intro t isLast
        rw [List.getLast?_map] at isLast
        obtain ⟨u, uLast, rfl⟩ := Option.map_eq_some_iff.mp isLast
        exact first u uLast
      rw [Line.join, apart.append _ _ first', apart.map, others, ← body]
      rfl

/-- What is read from the tokens of a text is read from its lines. -/
theorem read_linesOf {found : String → List α}
    (same : ∀ text, found text = read (tokenize text 0).1.toList) {source : String}
    (ends : ∀ line ∈ (linesOf source).dropLast, EndsStatement line.tokens.dropLast) :
    found source =
      (linesOf source).flatMap fun line => (found line.text).map (relocate line.moved) := by
  simp only [same]
  rcases tokens_eq_join source with joined | ⟨none, last, eof, tokens⟩
  · rw [joined, read_join apart ends]
    rfl
  · rw [tokens, none, apart.eof last eof]
    rfl

end

/-! ## Texts of programs -/

theorem intercalate_ne_empty (separator : String) {texts : List String} (some : texts ≠ [])
    (full : ∀ text ∈ texts, text ≠ "") : separator.intercalate texts ≠ "" := by
  obtain ⟨first, more, rfl⟩ := List.exists_cons_of_ne_nil some
  have head := full first List.mem_cons_self
  cases more with
  | nil => simpa using head
  | cons next more => simp [String.intercalate_cons_cons, head]

/-- Parts that are joined one by one, and then those of them that are not empty. -/
theorem intercalate_flatten (separator : String) {parts : List (List String)}
    (full : ∀ part ∈ parts, ∀ text ∈ part, text ≠ "") :
    separator.intercalate parts.flatten =
      separator.intercalate ((parts.map separator.intercalate).filter (· ≠ "")) := by
  induction parts with
  | nil => rfl
  | cons part parts ih =>
    obtain ⟨fullPart, fullParts⟩ := List.forall_mem_cons.mp full
    have rest := ih fullParts
    by_cases empty : part = []
    · subst empty
      simpa using rest
    · have shown := intercalate_ne_empty separator empty fullPart
      have kept : ((part :: parts).map separator.intercalate).filter (· ≠ "") =
          [separator.intercalate part] ++ (parts.map separator.intercalate).filter (· ≠ "") := by
        simp [shown]
      have fullKept : ∀ text ∈ (parts.map separator.intercalate).filter (· ≠ ""), text ≠ "" := by
        intro text mem
        simpa using (List.mem_filter.mp mem).2
      rw [List.flatten_cons, kept]
      -- Both rests are empty or neither is, since what they join to is the same.
      by_cases none : parts.flatten = []
      · rw [none, List.append_nil]
        rw [none, String.intercalate_nil] at rest
        have noneKept : (parts.map separator.intercalate).filter (· ≠ "") = [] := by
          by_contra some
          exact intercalate_ne_empty separator some fullKept rest.symm
        rw [noneKept, List.append_nil, String.intercalate_singleton]
      · have fullRest : ∀ text ∈ parts.flatten, text ≠ "" := by
          intro text mem
          obtain ⟨part, among, inside⟩ := List.mem_flatten.mp mem
          exact fullParts part among text inside
        have someKept : (parts.map separator.intercalate).filter (· ≠ "") ≠ [] := by
          intro noneKept
          rw [noneKept, String.intercalate_nil] at rest
          exact intercalate_ne_empty separator none fullRest rest
        rw [String.intercalate_append_of_ne_nil empty none, rest,
          String.intercalate_append_of_ne_nil (List.cons_ne_nil _ _) someKept,
          String.intercalate_singleton]

theorem texts_ne_empty (p : Program) :
    ∀ text ∈ p.statements.toList.map Statement.text, text ≠ "" := by
  intro text mem
  obtain ⟨s, _, rfl⟩ := List.mem_map.mp mem
  exact s.text_ne_empty

theorem text_eq_empty_iff (p : Program) : p.text = "" ↔ p.isEmpty = true := by
  rw [Program.isEmpty, Array.isEmpty_iff, ← Array.toList_eq_nil_iff]
  constructor
  · intro empty
    by_contra some
    exact intercalate_ne_empty "\n" (mt List.map_eq_nil_iff.mp some) (texts_ne_empty p) empty
  · intro none
    rw [Program.text, none]
    rfl

/-- A program with the texts of several ones has their texts, without those that are empty. -/
theorem text_eq_intercalate {p : Program} {parts : List Program}
    (texts : p.statements.toList.map Statement.text =
      parts.flatMap fun part => part.statements.toList.map Statement.text) :
    p.text = "\n".intercalate ((parts.map Program.text).filter (· ≠ "")) := by
  have full : ∀ part ∈ parts.map (fun part => part.statements.toList.map Statement.text),
      ∀ text ∈ part, text ≠ "" := by
    intro part mem
    obtain ⟨q, _, rfl⟩ := List.mem_map.mp mem
    exact texts_ne_empty q
  rw [Program.text, texts, List.flatMap_def, intercalate_flatten "\n" full, List.map_map]
  rfl

/-! ## The answers to the lines -/

/-- The answer to a line: the text of its program, if it has one, and a block for each of its
diagnostics, those of its lexer first. -/
def AnswersLine (options : Options) (recovery : Recovery) (line : String) (answer : Run) : Prop :=
  let read := readProgram line 0 recovery
  let cache := cacheOf "<repl>" line
  ∃ lexical syntactic,
    ShownAs cache options.colored read.2.lexer.diagnostics lexical ∧
    ShownAs cache options.colored read.2.diagnostics syntactic ∧
    answer =
      ⟨⟨if read.1.text = "" then "" else read.1.text ++ "\n",
        logText options.verbosity (read.2.journal.reverse.map .event) ++
          unlines (lexical ++ syntactic)⟩, none⟩

theorem answersLine_runLine (options : Options) (recovery : Recovery) (line : String) :
    AnswersLine options recovery line (runLine options false recovery line) := by
  obtain ⟨lexical, syntactic, shownLexical, shownSyntactic⟩ :=
    exists_shownAs_readProgram line 0 recovery (cacheOf "<repl>" line) options.colored
  refine ⟨lexical, syntactic, shownLexical, shownSyntactic, ?_⟩
  simp only [text_eq_empty_iff]
  exact finish_eq (shownLexical.append shownSyntactic) _ _ none

/-- Lines that can all be answered are answered one after the other, each behind a prompt. -/
theorem runLinesFrom_eq {options : Options} {tokens : Bool} {recovery : Recovery}
    {lines : List String}
    (answered : ∀ line ∈ lines, (runLine options tokens recovery line).failure = none)
    (written : Console) :
    runLinesFrom options tokens recovery written (lines.map .ok) =
      ⟨written.append
        ⟨String.join (lines.map fun line =>
            prompt ++ (runLine options tokens recovery line).console.out) ++ prompt ++ farewell,
          String.join (lines.map fun line => (runLine options tokens recovery line).console.err)⟩,
        none⟩ := by
  induction lines generalizing written with
  | nil => simp [runLinesFrom, Console.append]
  | cons line lines ih =>
    obtain ⟨first, others⟩ := List.forall_mem_cons.mp answered
    simp only [List.map_cons, runLinesFrom, first, ih others, Console.append, String.join_cons,
      String.append_assoc, String.append_empty]

/-- On a text the loop answers each of its lines. -/
theorem report_runLines (options : Options) (recovery : Recovery) (source : String) :
    (runLines options false recovery source.toUTF8).report =
      ⟨0, String.join ((linesOf source).map fun line =>
            prompt ++ (runLine options false recovery line.text).console.out) ++ prompt ++ farewell,
        String.join ((linesOf source).map fun line =>
          (runLine options false recovery line.text).console.err)⟩ := by
  have answered : ∀ line ∈ textLines source,
      (runLine options false recovery line).failure = none := by
    intro line _
    obtain ⟨_, _, _, _, same⟩ := answersLine_runLine options recovery line
    rw [same]
  rw [runLines, byteLines_decode, runLinesFrom_eq answered, ← text_linesOf]
  simp only [Run.report, Console.append, Console.empty, String.empty_append, List.map_map,
    Function.comp_def]

/-! ## The loop and the file -/

/-- A text whose lines, but for the last one, end with a semicolon or have no token. The loop is
given its lines. What it reads in them, one after another, is what is read in the whole text:
the statements, the illegal characters and the mismatches are the same in the same order, and
each place in a line is moved by the lines and the bytes before that line. The texts of the
lines that are not empty, one to a row, are the text of the program. The loop writes just these
texts and blocks for just these diagnostics, line by line behind its prompts. -/
theorem readProgram_lines {source : String}
    (ends : ∀ line ∈ (linesOf source).dropLast,
      ∀ t ∈ (tokenize line.text 0).1.toList.dropLast.getLast?, t.kind = .semicolon)
    (recovery : Recovery) :
    let lines := linesOf source
    let whole := readProgram source 0 recovery
    let read := fun line : Line => readProgram line.text 0 recovery
    (byteLines source.toUTF8).map decodeText = lines.map (fun line => .ok line.text) ∧
    whole.1.statements.toList = lines.flatMap (fun line =>
      (read line).1.statements.toList.map (Statement.relocate line.moved)) ∧
    whole.2.lexer.diagnostics.toList = lines.flatMap (fun line =>
      (read line).2.lexer.diagnostics.toList.map (Diagnostic.relocate line.moved)) ∧
    whole.2.diagnostics.toList = lines.flatMap (fun line =>
      (read line).2.diagnostics.toList.map (Diagnostic.relocate line.moved)) ∧
    whole.1.text = "\n".intercalate ((lines.map fun line => (read line).1.text).filter (· ≠ "")) ∧
    parse source 0 recovery = (whole.1, whole.2.lexer.diagnostics ++ whole.2.diagnostics) ∧
    ∀ (verbosity : Nat) (colored : Bool) (files : Files),
      let options : Options := ⟨.repl false recovery, verbosity, colored⟩
      let answer := fun line : Line => runLine options false recovery line.text
      (∀ line ∈ lines, AnswersLine options recovery line.text (answer line)) ∧
      (runOptions options files source.toUTF8).report =
        ⟨0, String.join (lines.map fun line => prompt ++ (answer line).console.out) ++ prompt ++
            farewell,
          String.join (lines.map fun line => (answer line).console.err)⟩ := by
  intro lines whole read
  have programs : ∀ text, (readProgram text 0 recovery).1.statements.toList =
      (readSegments recovery (tokenize text 0).1.toList).1 :=
    fun text => congrArg Prod.fst (readProgram_eq_readSegments text 0 recovery)
  have illegal : ∀ text, (readProgram text 0 recovery).2.lexer.diagnostics.toList =
      ((tokenize text 0).1.toList.filter Token.isIllegal).map Token.illegalCharacter := by
    intro text
    rw [← diagnostics_tokenize_text, lexer_diagnostics_readProgram]
  have mismatches : ∀ text, (readProgram text 0 recovery).2.diagnostics.toList =
      (readSegments recovery (tokenize text 0).1.toList).2 :=
    fun text => congrArg Prod.snd (readProgram_eq_readSegments text 0 recovery)
  have statements := read_linesOf (readsApart_statements recovery) programs ends
  refine ⟨?_, statements, read_linesOf readsApart_illegal illegal ends,
    read_linesOf (readsApart_mismatches recovery) mismatches ends, ?_, rfl, ?_⟩
  · rw [byteLines_decode, ← text_linesOf, List.map_map]
    rfl
  · have texts : whole.1.statements.toList.map Statement.text =
        (lines.map fun line => (read line).1).flatMap fun part =>
          part.statements.toList.map Statement.text := by
      rw [statements, List.map_flatMap, List.flatMap_map]
      simp only [List.map_map, Function.comp_def, Statement.text_relocate]
      rfl
    have text := text_eq_intercalate texts
    rwa [List.map_map] at text
  · intro verbosity colored files options answer
    exact ⟨fun line _ => answersLine_runLine options recovery line.text,
      report_runLines options recovery source⟩

/-- Three lines: a binding, an illegal character, and a binding that is cut off. -/
theorem readProgram_lines_broken_file :
    let source := "let a = 1;\n@;\nlet b"
    let lines := linesOf source
    let whole := readProgram source 0 .skipToken
    let read := fun line : Line => readProgram line.text 0 .skipToken
    let options : Options := ⟨.repl false .skipToken, 0, false⟩
    let second : Line := ⟨1, 11, "@;\n"⟩
    (∀ line ∈ lines.dropLast,
      ∀ t ∈ (tokenize line.text 0).1.toList.dropLast.getLast?, t.kind = .semicolon) ∧
    lines.map Line.start = [0, 11, 14] ∧
    whole.2.diagnostics.size = 1 ∧
    whole.2.diagnostics.toList = lines.flatMap (fun line =>
      (read line).2.diagnostics.toList.map (Diagnostic.relocate line.moved)) ∧
    whole.1.text = "\n".intercalate ((lines.map fun line => (read line).1.text).filter (· ≠ "")) ∧
    second ∈ lines ∧
    AnswersLine options .skipToken second.text (runLine options false .skipToken second.text) ∧
    (runOptions options .empty source.toUTF8).report.out = ">> let a;\n>> >> >> \n" := by
  intro source lines whole read options second
  have ends : ∀ line ∈ lines.dropLast,
      ∀ t ∈ (tokenize line.text 0).1.toList.dropLast.getLast?, t.kind = .semicolon := by
    decide +kernel
  have mem : second ∈ lines := by decide +kernel
  obtain ⟨_, _, _, mismatches, text, _, answers⟩ := readProgram_lines ends .skipToken
  obtain ⟨answered, report⟩ := answers 0 false .empty
  refine ⟨ends, by decide +kernel, by decide +kernel, mismatches, text, mem, answered second mem,
    ?_⟩
  rw [report]
  decide +kernel

end Monkey.Command
