import Monkey.Command.Run
import Monkey.Proofs.Diagnostic.Underflow

/-! # Reports on a file

Two tasks look at a file: one lists its tokens, the other prints its program. Main statement:
they tell the same of its illegal characters, and a file that the first one rejects is
rejected by the second. -/

namespace Monkey.Command

/-! ## Diagnostics in blocks -/

/-- Each diagnostic is shown as its block. -/
def ShownAs (cache : SourceCache) (colored : Bool) (ds : Diagnostics) (blocks : List String) :
    Prop :=
  List.Forall₂ (fun d block => d.render cache colored = .ok block) ds.toList blocks

section

variable {cache : SourceCache} {colored : Bool} {ds others : Diagnostics}
  {blocks more : List String}

theorem ShownAs.append (h : ShownAs cache colored ds blocks)
    (h' : ShownAs cache colored others more) :
    ShownAs cache colored (ds ++ others) (blocks ++ more) := by
  rw [ShownAs, Array.toList_append]
  exact List.rel_append h h'

theorem ShownAs.length_eq (h : ShownAs cache colored ds blocks) : blocks.length = ds.size := by
  rw [← Array.length_toList]
  exact (List.Forall₂.length_eq h).symm

theorem exists_shownAs (lines : ∀ d ∈ ds, d.StaysOnLines) (cache : SourceCache) (colored : Bool) :
    ∃ blocks, ShownAs cache colored ds blocks := by
  choose! block shown using fun d mem => (lines d mem).exists_render cache colored
  refine ⟨ds.toList.map block, List.forall₂_map_right_iff.mpr (List.forall₂_same.mpr ?_)⟩
  exact fun d mem => shown d (Array.mem_toList_iff.mp mem)

theorem ShownAs.diagnosticsText_eq (h : ShownAs cache colored ds blocks) :
    diagnosticsText cache colored ds = .ok (unlines blocks) := by
  have texts : ds.toList.mapM (Diagnostic.render cache colored) = .ok blocks := by
    unfold ShownAs at h
    generalize ds.toList = list at h
    induction h with
    | nil => rfl
    | cons first _ ih =>
      rw [List.mapM_cons, first, ih]
      rfl
  rw [diagnosticsText, texts]
  rfl

end

/-! ## Finished runs -/

/-- The last line of a report, if anything was found. -/
def countLine (count : Nat) : String :=
  if count = 0 then "" else "error: " ++ toString count ++ " error(s) found\n"

/-- Nothing is logged unless it is asked for. -/
theorem logText_zero (entries : List LogEntry) : logText 0 entries = "" := by
  have none : entries.filter (·.level ≤ 0) = [] := by
    rw [List.filter_eq_nil_iff]
    intro entry _
    rcases entry with (_ | _ | _ | _) | _ <;> simp [LogEntry.level]
  rw [logText, none]
  rfl

/-- The diagnostics of a text can be shown, those of its lexer and its mismatches apart. -/
theorem exists_shownAs_readProgram (source : String) (file : FileId) (recovery : Recovery)
    (cache : SourceCache) (colored : Bool) :
    ∃ lexical syntactic,
      ShownAs cache colored (readProgram source file recovery).2.lexer.diagnostics lexical ∧
      ShownAs cache colored (readProgram source file recovery).2.diagnostics syntactic := by
  have lines : ∀ d ∈ (readProgram source file recovery).2.allDiagnostics, d.StaysOnLines :=
    fun d mem => (about_of_mem_parse mem).staysOnLines
  obtain ⟨lexical, shownLexical⟩ :=
    exists_shownAs (fun d mem => lines d (Array.mem_append_left _ mem)) cache colored
  obtain ⟨syntactic, shownSyntactic⟩ :=
    exists_shownAs (fun d mem => lines d (Array.mem_append_right _ mem)) cache colored
  exact ⟨lexical, syntactic, shownLexical, shownSyntactic⟩

/-- A run whose diagnostics can be shown writes them behind its log. -/
theorem finish_eq {options : Options} {cache : SourceCache} {ds : Diagnostics}
    {blocks : List String} (shown : ShownAs cache options.colored ds blocks) (out : String)
    (log : List LogEntry) (failure : Option Failure) :
    finish options cache out log ds failure =
      ⟨⟨out, logText options.verbosity log ++ unlines blocks⟩, failure⟩ := by
  simp only [finish, shown.diagnosticsText_eq]

/-- A run on a file writes a block for each diagnostic and their number, and fails if there
is one. -/
theorem report_finish {options : Options} {cache : SourceCache} {ds : Diagnostics}
    {blocks : List String} (quiet : options.verbosity = 0)
    (shown : ShownAs cache options.colored ds blocks) (out : String) (log : List LogEntry) :
    (finish options cache out log ds (failureOf ds)).report =
      ⟨if ds.size = 0 then 0 else 1, out, unlines blocks ++ countLine ds.size⟩ := by
  have run : finish options cache out log ds (failureOf ds) =
      ⟨⟨out, unlines blocks⟩, failureOf ds⟩ := by
    rw [finish_eq shown, quiet, logText_zero, String.empty_append]
  rw [run]
  by_cases empty : ds.size = 0
  · have none : failureOf ds = none := if_pos (Array.isEmpty_iff_size_eq_zero.mpr empty)
    rw [none, empty, countLine, if_pos rfl, if_pos rfl, String.append_empty]
    rfl
  · have some : failureOf ds = some (.diagnostics ds.size) :=
      if_neg (mt Array.isEmpty_iff_size_eq_zero.mp empty)
    have ending : " error(s) found\n" = " error(s) found" ++ "\n" := rfl
    rw [some, countLine, if_neg empty, if_neg empty, ending]
    show Report.mk 1 out (unlines blocks ++ "error: " ++ (toString ds.size ++ " error(s) found") ++
      "\n") = _
    simp only [String.append_assoc]

/-! ## The two tasks -/

/-- The cache of a run on one file. -/
def cacheOf (path source : String) : SourceCache := (SourceCache.empty.add path source).2

section

variable (action : Action) {colored : Bool} {path source : String} {blocks : List String}

theorem report_runLex
    (shown : ShownAs (cacheOf path source) colored (tokenize source 0).2 blocks) :
    (runLex ⟨action, 0, colored⟩ path source).report =
      ⟨if blocks.length = 0 then 0 else 1, tokenListing (tokenize source 0).1,
        unlines blocks ++ countLine blocks.length⟩ := by
  rw [shown.length_eq]
  exact report_finish rfl shown _ _

theorem report_runParse {recovery : Recovery}
    (shown : ShownAs (cacheOf path source) colored (parse source 0 recovery).2 blocks)
    (tree : Bool) :
    (runParse ⟨action, 0, colored⟩ path source recovery tree).report =
      ⟨if blocks.length = 0 then 0 else 1, programText (readProgram source 0 recovery).1 tree,
        unlines blocks ++ countLine blocks.length⟩ := by
  rw [shown.length_eq]
  exact report_finish rfl shown _ _

end

/-- A file that cannot be read fails every task alike. -/
theorem report_runFile_error (options : Options) (path : String) (task : FileTask)
    (error : ReadError) :
    (runFile options path task (.error error)).report =
      ⟨1, "", "error: could not read " ++ path ++ ": " ++ error.message ++ "\n"⟩ := by
  have heading : "error: could not read " = "error: " ++ "could not read " := rfl
  show Report.mk 1 "" ("" ++ "error: " ++ ("could not read " ++ path ++ ": " ++ error.message) ++
    "\n") = _
  rw [heading]
  simp only [String.empty_append, String.append_assoc]

/-- A run whose command line is understood has a report. -/
theorem run_of_ofArguments {arguments : List String} {options : Options}
    (h : Options.ofArguments arguments = .ok options) (files : Files) (input : ByteArray) :
    run arguments files input = .ok (runOptions options files input).report := by
  rw [run, h]
  rfl

/-- The number of illegal tokens is the number of diagnostics that a listing has. -/
theorem size_diagnostics_tokenize (source : String) (file : FileId) :
    (tokenize source file).2.size = (tokenize source file).1.toList.countP Token.isIllegal := by
  rw [← Array.length_toList, diagnostics_tokenize_text, List.length_map,
    List.countP_eq_length_filter]

/-- What the two tasks write about a file and how they end. The listing shows the illegal
characters; the program is shown with the same blocks and, behind them, the mismatches. Each
tells the number of its blocks in the end and fails when there is one. A file that cannot be
read fails both alike. -/
theorem lex_parse_agree {lexLine parseLine : List String} {path : String} {colored tree : Bool}
    {recovery : Recovery}
    (lexes : Options.ofArguments lexLine = .ok ⟨.file path .lex, 0, colored⟩)
    (parses : Options.ofArguments parseLine = .ok ⟨.file path (.parse recovery tree), 0, colored⟩)
    (files : Files) (input : ByteArray) :
    ∃ listed parsed : Report,
      run lexLine files input = .ok listed ∧ run parseLine files input = .ok parsed ∧
      (listed.code ≠ 0 → parsed.code ≠ 0) ∧
      (∀ error, files.read path = .error error →
        listed = ⟨1, "", "error: could not read " ++ path ++ ": " ++ error.message ++ "\n"⟩ ∧
          parsed = listed) ∧
      ∀ source, files.read path = .ok source →
        let cache := cacheOf path source
        let illegal := (tokenize source 0).1.toList.countP Token.isIllegal
        let read := readProgram source 0 recovery
        let mismatches := read.2.diagnostics.size
        ∃ lexical syntactic,
          ShownAs cache colored (tokenize source 0).2 lexical ∧ lexical.length = illegal ∧
          ShownAs cache colored read.2.diagnostics syntactic ∧ syntactic.length = mismatches ∧
          listed.code = (if illegal = 0 then 0 else 1) ∧
          listed.err = unlines lexical ++ countLine illegal ∧
          parsed.code = (if illegal + mismatches = 0 then 0 else 1) ∧
          parsed.err = unlines (lexical ++ syntactic) ++ countLine (illegal + mismatches) ∧
          parsed.out = programText read.1 tree := by
  refine ⟨_, _, run_of_ofArguments lexes files input, run_of_ofArguments parses files input, ?_⟩
  simp only [runOptions]
  cases file : files.read path with
  | error error =>
    rw [report_runFile_error, report_runFile_error]
    refine ⟨fun failed => failed, ?_, nofun⟩
    rintro _ ⟨⟩
    exact ⟨rfl, rfl⟩
  | ok source =>
    obtain ⟨lexical, syntactic, shownLexical, shownSyntactic⟩ :=
      exists_shownAs_readProgram source 0 recovery (cacheOf path source) colored
    have shown := shownLexical.append shownSyntactic
    rw [lexer_diagnostics_readProgram] at shownLexical
    have illegal := shownLexical.length_eq.trans (size_diagnostics_tokenize source 0)
    have mismatches := shownSyntactic.length_eq
    have listed := report_runLex (.file path .lex) shownLexical
    have parsed := report_runParse (.file path (.parse recovery tree)) shown tree
    rw [List.length_append] at parsed
    rw [illegal] at listed
    rw [illegal, mismatches] at parsed
    simp only [runFile, listed, parsed]
    refine ⟨?_, nofun, ?_⟩
    · intro rejected
      split at rejected
      · exact absurd rfl rejected
      · rw [if_neg (by omega)]
        exact rejected
    · rintro _ ⟨⟩
      exact ⟨lexical, syntactic, shownLexical, illegal, shownSyntactic, mismatches, rfl, rfl, rfl,
        rfl, rfl⟩

/-- A path that is a name. -/
theorem parts_name : Files.parts "m" = ["m"] := by
  rw [Files.parts, String.splitOn, if_neg (by decide), String.splitOnAux,
    if_neg (by decide +kernel), if_neg (by decide +kernel), String.splitOnAux,
    if_pos (by decide +kernel)]
  decide +kernel

/-- A file with an illegal character, a broken binding and a statement, with colors refused
in two places. -/
theorem lex_parse_agree_broken_file :
    let source := "let a @ 1;\nreturn a;\n"
    let files := Files.empty.add "m" (.file source.toUTF8)
    let lexLine := ["--no-color", "lex", "m"]
    let parseLine := ["parse", "-rsync", "m", "--no-color"]
    Options.ofArguments lexLine = .ok ⟨.file "m" .lex, 0, false⟩ ∧
      Options.ofArguments parseLine = .ok ⟨.file "m" (.parse .synchronize false), 0, false⟩ ∧
      files.read "m" = .ok source ∧
      ∃ listed parsed : Report,
        run lexLine files .empty = .ok listed ∧ run parseLine files .empty = .ok parsed ∧
        listed.code = 1 ∧ parsed.code = 1 ∧ parsed.out = "return;\n" := by
  intro source files lexLine parseLine
  have lexes : Options.ofArguments lexLine = .ok ⟨.file "m" .lex, 0, false⟩ := by
    decide +kernel
  have parses : Options.ofArguments parseLine =
      .ok ⟨.file "m" (.parse .synchronize false), 0, false⟩ := by
    decide +kernel
  have read : files.read "m" = .ok source := by
    simp only [files, Files.add, Files.read, Files.find, parts_name]
    decide +kernel
  obtain ⟨listed, parsed, runLexed, runParsed, _, _, readable⟩ :=
    lex_parse_agree lexes parses files .empty
  obtain ⟨_, _, _, _, _, _, codeListed, _, codeParsed, _, out⟩ := readable source read
  refine ⟨lexes, parses, read, listed, parsed, runLexed, runParsed, ?_, ?_, ?_⟩
  · rw [codeListed]
    decide +kernel
  · rw [codeParsed]
    decide +kernel
  · rw [out]
    decide +kernel

end Monkey.Command
