import Monkey.Proofs.Command.Input
import Monkey.Proofs.Command.Reports
import Monkey.Proofs.Command.Uncolored
import Monkey.Proofs.Diagnostic.Colors

/-! # Runs without colors

Colors reach a run through its diagnostics alone. Main statement: where no input has an escape
character, refusing colors leaves the output and the exit status of a run as they are, and
deletes the styles from what it writes about errors. -/

namespace Monkey.Command

/-! ## Inputs without escapes -/

/-- A text has the byte of an escape for each escape in it. -/
theorem escapeFree_of_decodeText {bytes : ByteArray} {text : String} (free : 27 ∉ bytes.toList)
    (h : decodeText bytes = .ok text) : EscapeFree text := by
  have encoded : text.toByteArray = bytes := by
    unfold decodeText String.fromUTF8? at h
    split at h
    · rename_i found
      split at found
      · obtain rfl := Except.ok.inj h
        obtain rfl := Option.some.inj found
        rfl
      · cases found
    · cases h
  rw [← encoded, toByteArray_eq, toList_toByteArray] at free
  intro mem
  exact free (List.mem_flatMap.mpr ⟨'\x1b', mem, by decide⟩)

theorem escapeFree_of_decodeText_error {bytes : ByteArray} {error : ReadError}
    (h : decodeText bytes = .error error) : EscapeFree error.message := by
  unfold decodeText at h
  split at h
  · cases h
  · cases h
    decide

/-- A line has no bytes but those of the input. -/
theorem subset_of_mem_byteLines {input line : ByteArray} (mem : line ∈ byteLines input) :
    line.toList ⊆ input.toList := by
  have whole : input = input.toList.toByteArray := by
    apply ByteArray.ext
    rw [ByteArray.toList, toList_loop_eq]
    simp
  rw [whole, byteLines_toByteArray] at mem
  obtain ⟨bytes, among, rfl⟩ := List.mem_map.mp mem
  rw [toList_toByteArray, ← flatten_cutBehind (· = 10) input.toList]
  exact (List.sublist_flatten_of_mem among).subset

theorem escapeFree_of_walk {files above : Files} {place parts : List String} {error : ReadError}
    (h : files.walk above place parts = .error error) : EscapeFree error.message := by
  fun_induction Files.walk files above place parts with
  | case1 files place =>
    cases found : files.at? place with
    | none =>
      rw [found] at h
      cases h
      decide
    | some entry =>
      rw [found] at h
      cases h
  | case2 | case3 | case7 =>
    cases h
    decide
  | case4 _ _ _ _ _ _ ih | case5 _ _ _ _ _ _ ih | case6 _ _ _ _ _ _ ih
  | case8 _ _ _ _ _ _ _ _ ih => exact ih h

/-- Reading a file fails for reasons without escapes. -/
theorem escapeFree_of_read {files : Files} {path : String} {error : ReadError}
    (h : files.read path = .error error) : EscapeFree error.message := by
  unfold Files.read at h
  cases found : files.find path with
  | error refusal =>
    rw [found] at h
    cases h
    unfold Files.find at found
    split_ifs at found
    · cases found
      decide
    · cases found
      decide
    · exact escapeFree_of_walk found
    · exact escapeFree_of_walk found
  | ok entry =>
    rw [found] at h
    cases entry with
    | directory =>
      cases h
      decide
    | file bytes => exact escapeFree_of_decodeText_error h

/-- Neither what an action names nor what it reads has an escape. -/
def Action.EscapeFree (files : Files) (input : ByteArray) : Action → Prop
  | .version => True
  | .file path _ =>
    Monkey.EscapeFree path ∧ ∀ source, files.read path = .ok source → Monkey.EscapeFree source
  | .repl _ _ => 27 ∉ input.toList

/-! ## Runs -/

theorem escapeFree_none : ∀ reason ∈ (none : Option Failure), EscapeFree reason.message := nofun

theorem escapeFree_failureOf (ds : Diagnostics) :
    ∀ reason ∈ failureOf ds, EscapeFree reason.message := by
  intro reason mem
  unfold failureOf at mem
  split at mem
  · exact escapeFree_none reason mem
  · cases mem
    have ending : EscapeFree " error(s) found" := by decide
    exact escapeFree_append.mpr ⟨escapeFree_repr _, ending⟩

theorem escapeFree_cacheOf {path source : String} (name : EscapeFree path)
    (text : EscapeFree source) : (cacheOf path source).EscapeFree := by
  intro id file known
  have only : #[SourceFile.ofText path source][id.toNat]? = some file := known
  obtain rfl := Array.mem_singleton.mp (Array.mem_of_getElem? only)
  exact ⟨name, text⟩

/-- The blocks of diagnostics come from their layouts. -/
theorem diagnosticsText_eq_map_layouts (cache : SourceCache) (colored : Bool) (ds : Diagnostics) :
    diagnosticsText cache colored ds = (ds.layouts cache).map fun layouts =>
      String.join (layouts.map fun pieces => writePieces colored pieces ++ "\n") := by
  rw [diagnosticsText, Diagnostics.mapM_render]
  cases ds.layouts cache with
  | error e => rfl
  | ok layouts => simp [Except.map, Function.comp_def]

/-- The same has been written, but for the styles in what is written about errors. -/
structure Console.SameUpToStyles (styled plain : Console) : Prop where
  out : styled.out = plain.out
  err : Unstyles styled.err plain.err

theorem Console.SameUpToStyles.append {styled plain more plainMore : Console}
    (h : styled.SameUpToStyles plain) (h' : more.SameUpToStyles plainMore) :
    (styled.append more).SameUpToStyles (plain.append plainMore) :=
  ⟨congrArg₂ (· ++ ·) h.out h'.out, h.err.append h'.err⟩

/-- Nothing is written about errors. -/
theorem Console.sameUpToStyles_of_silent (out : String) :
    Console.SameUpToStyles ⟨out, ""⟩ ⟨out, ""⟩ := ⟨rfl, .empty⟩

/-- Two runs that differ in the styles of what they write about errors, and in nothing else. -/
structure Run.SameUpToStyles (styled plain : Run) : Prop where
  console : styled.console.SameUpToStyles plain.console
  failure : styled.failure = plain.failure
  message : ∀ failure ∈ plain.failure, EscapeFree failure.message

namespace Run.SameUpToStyles

variable {styled plain : Run}

theorem report (h : styled.SameUpToStyles plain) :
    styled.report.code = plain.report.code ∧ styled.report.out = plain.report.out ∧
      withoutStyles styled.report.err = plain.report.err := by
  rw [Run.report, Run.report, h.failure]
  cases same : plain.failure with
  | none => exact ⟨rfl, h.console.out, h.console.err.withoutStyles_eq⟩
  | some failure =>
    have heading : Unstyles "error: " "error: " := EscapeFree.unstyles (by decide)
    have said := (h.message failure same).unstyles
    have err := ((h.console.err.append heading).append said).append Unstyles.newline
    exact ⟨rfl, h.console.out, err.withoutStyles_eq⟩

end Run.SameUpToStyles

section

variable {options : Options} (quiet : options.verbosity = 0)

include quiet

theorem sameUpToStyles_finish {cache : SourceCache} {out : String} {log : List LogEntry}
    {ds : Diagnostics} {failure : Option Failure} (free : ∀ d ∈ ds, d.EscapeFreeIn cache)
    (message : ∀ reason ∈ failure, EscapeFree reason.message) :
    (finish options cache out log ds failure).SameUpToStyles
      (finish options.uncolored cache out log ds failure) := by
  have logged : logText options.verbosity log = "" := by rw [quiet, logText_zero]
  rw [finish, finish, diagnosticsText_eq_map_layouts, diagnosticsText_eq_map_layouts]
  simp only [Options.uncolored, logged, String.empty_append]
  cases laid : ds.layouts cache with
  | error e =>
    refine ⟨Console.sameUpToStyles_of_silent out, rfl, ?_⟩
    rintro failure ⟨⟩
    cases e
    decide
  | ok layouts =>
    have each := Diagnostics.unstyles_of_mem_layouts free laid options.colored
    refine ⟨⟨rfl, ?_⟩, rfl, message⟩
    exact Unstyles.join fun pieces mem => (each pieces mem).append Unstyles.newline

variable {path source : String}

theorem sameUpToStyles_runLex (name : EscapeFree path) (text : EscapeFree source) :
    (runLex options path source).SameUpToStyles (runLex options.uncolored path source) := by
  have files := escapeFree_cacheOf name text
  refine sameUpToStyles_finish quiet (fun d mem => ?_) (escapeFree_failureOf _)
  exact (ofTokens_of_mem_tokenize mem).escapeFreeIn text files

theorem sameUpToStyles_runParse (name : EscapeFree path) (text : EscapeFree source)
    (recovery : Recovery) (tree : Bool) :
    (runParse options path source recovery tree).SameUpToStyles
      (runParse options.uncolored path source recovery tree) := by
  have files := escapeFree_cacheOf name text
  refine sameUpToStyles_finish quiet (fun d mem => ?_) (escapeFree_failureOf _)
  exact (ofTokens_of_mem_readWith .skip mem).escapeFreeIn text files

theorem sameUpToStyles_runFile (name : EscapeFree path) (task : FileTask)
    {read : Except ReadError String} (texts : ∀ source, read = .ok source → EscapeFree source)
    (errors : ∀ error, read = .error error → EscapeFree error.message) :
    (runFile options path task read).SameUpToStyles
      (runFile options.uncolored path task read) := by
  cases read with
  | error error =>
    refine ⟨Console.sameUpToStyles_of_silent "", rfl, ?_⟩
    rintro reason ⟨⟩
    have heading : EscapeFree "could not read " := by decide
    have colon : EscapeFree ": " := by decide
    have said := errors error rfl
    exact escapeFree_append.mpr
      ⟨escapeFree_append.mpr ⟨escapeFree_append.mpr ⟨heading, name⟩, colon⟩, said⟩
  | ok source =>
    have text := texts source rfl
    cases task with
    | lex => exact sameUpToStyles_runLex quiet name text
    | parse recovery tree => exact sameUpToStyles_runParse quiet name text recovery tree

theorem sameUpToStyles_runLine (tokens : Bool) (recovery : Recovery) (text : EscapeFree source) :
    (runLine options tokens recovery source).SameUpToStyles
      (runLine options.uncolored tokens recovery source) := by
  have name : EscapeFree "<repl>" := by decide
  have files := escapeFree_cacheOf name text
  cases tokens with
  | true =>
    refine sameUpToStyles_finish quiet (fun d mem => ?_) escapeFree_none
    exact (ofTokens_of_mem_tokenize mem).escapeFreeIn text files
  | false =>
    refine sameUpToStyles_finish quiet (fun d mem => ?_) escapeFree_none
    exact (ofTokens_of_mem_readWith .skip mem).escapeFreeIn text files

/-- What both runs have written goes on with what they answer to the next line. -/
theorem sameUpToStyles_runLinesFrom (tokens : Bool) (recovery : Recovery)
    {lines : List (Except ReadError String)}
    (texts : ∀ source, .ok source ∈ lines → EscapeFree source)
    (errors : ∀ error, .error error ∈ lines → EscapeFree error.message)
    {styled plain : Console} (written : styled.SameUpToStyles plain) :
    (runLinesFrom options tokens recovery styled lines).SameUpToStyles
      (runLinesFrom options.uncolored tokens recovery plain lines) := by
  induction lines generalizing styled plain with
  | nil =>
    have ended := written.append (Console.sameUpToStyles_of_silent (prompt ++ farewell))
    exact ⟨ended, rfl, escapeFree_none⟩
  | cons line rest ih =>
    have asked := written.append (Console.sameUpToStyles_of_silent prompt)
    obtain ⟨textsRest, errorsRest⟩ :
        (∀ source, .ok source ∈ rest → EscapeFree source) ∧
          ∀ error, .error error ∈ rest → EscapeFree error.message :=
      ⟨fun source mem => texts source (List.mem_cons_of_mem _ mem),
        fun error mem => errors error (List.mem_cons_of_mem _ mem)⟩
    cases line with
    | error error =>
      refine ⟨asked, rfl, ?_⟩
      rintro reason ⟨⟩
      exact errors error List.mem_cons_self
    | ok source =>
      have answer := sameUpToStyles_runLine quiet tokens recovery (texts source List.mem_cons_self)
      have behind := asked.append answer.console
      rw [runLinesFrom, runLinesFrom, answer.failure]
      cases failed : (runLine options.uncolored tokens recovery source).failure with
      | some reason => exact ⟨behind, rfl, fun _ mem => answer.message _ (failed.trans mem)⟩
      | none => exact ih textsRest errorsRest behind

theorem sameUpToStyles_runOptions {files : Files} {input : ByteArray}
    (inputs : options.action.EscapeFree files input) :
    (runOptions options files input).SameUpToStyles
      (runOptions options.uncolored files input) := by
  have same : options.uncolored.action = options.action := rfl
  rw [runOptions, runOptions, same]
  cases action : options.action with
  | version => exact ⟨Console.sameUpToStyles_of_silent versionText, rfl, escapeFree_none⟩
  | file path task =>
    rw [action] at inputs
    exact sameUpToStyles_runFile quiet inputs.1 task inputs.2 fun error failed =>
      escapeFree_of_read failed
  | repl tokens recovery =>
    rw [action] at inputs
    have free : ∀ line ∈ byteLines input, 27 ∉ line.toList := fun line mem inside =>
      inputs (subset_of_mem_byteLines mem inside)
    refine sameUpToStyles_runLinesFrom quiet tokens recovery ?_ ?_
      (Console.sameUpToStyles_of_silent "")
    · intro source mem
      obtain ⟨line, among, decoded⟩ := List.mem_map.mp mem
      exact escapeFree_of_decodeText (free line among) decoded
    · intro error mem
      obtain ⟨line, _, refused⟩ := List.mem_map.mp mem
      exact escapeFree_of_decodeText_error refused

end

/-- Diagnostics that show no escape are the same with colors and without, but for the styles,
and they cannot be shown with colors when they cannot be shown without. So a run whose inputs
have no escape writes the same output and ends with the same status where colors are refused,
and writes the same about errors, without the styles. Every line with colors is still understood
with the refusal in front of it. -/
theorem colors_change_styles_only :
    (∀ (cache : SourceCache) (ds : Diagnostics),
      (∀ e, ds.render cache true = .error e ↔ ds.render cache false = .error e) ∧
      ((∀ d ∈ ds, d.EscapeFreeIn cache) →
        (ds.render cache true).map withoutStyles = ds.render cache false)) ∧
    (∀ (line : List String) (options : Options),
      Options.ofArguments line = .ok options → options.colored = true →
      Options.ofArguments ("--no-color" :: line) = .ok options.uncolored) ∧
    ∀ (before after : List String) (options options' : Options) (files : Files)
      (input : ByteArray),
      let line := before ++ after
      let refusing := before ++ "--no-color" :: after
      Options.ofArguments line = .ok options → Options.ofArguments refusing = .ok options' →
      options.verbosity = 0 → options.action.EscapeFree files input →
      ∃ report report' : Report,
        run line files input = .ok report ∧ run refusing files input = .ok report' ∧
        report'.code = report.code ∧ report'.out = report.out ∧
        report'.err = withoutStyles report.err := by
  refine ⟨fun cache ds => ⟨?_, ?_⟩, fun _ _ => ofArguments_noColor_cons, ?_⟩
  · exact Diagnostics.render_eq_error_iff_uncolored cache true ds
  · exact fun free => Diagnostics.withoutStyles_render free true
  · intro before after options options' files input line refusing read read' quiet inputs
    refine ⟨_, _, run_of_ofArguments read files input, run_of_ofArguments read' files input, ?_⟩
    have same := sameUpToStyles_runOptions quiet inputs
    rcases agree_readTop_refusal .initial before after options options' read read' with
      rfl | ⟨rfl, version⟩
    · obtain ⟨code, out, err⟩ := same.report
      exact ⟨code.symm, out.symm, err.symm⟩
    · -- Only the version is told, and nothing is written about errors.
      rw [runOptions, version]
      exact ⟨rfl, rfl, Unstyles.empty.withoutStyles_eq.symm⟩

/-- A file with an illegal character, with colors and without. -/
theorem colors_change_styles_only_illegal :
    let source := "let @;\n"
    let files := Files.empty.add "m" (.file source.toUTF8)
    let cache := cacheOf "m" source
    let ds := (tokenize source 0).2
    let options : Options := ⟨.file "m" .lex, 0, true⟩
    (∀ d ∈ ds, d.EscapeFreeIn cache) ∧
      (ds.render cache true).map withoutStyles = ds.render cache false ∧
      Options.ofArguments ["lex", "m"] = .ok options ∧
      options.colored = true ∧
      Options.ofArguments ["--no-color", "lex", "m"] = .ok options.uncolored ∧
      Options.ofArguments ["lex", "--no-color", "m"] = .ok options.uncolored ∧
      options.verbosity = 0 ∧ options.action.EscapeFree files .empty ∧
      ∃ report report' : Report,
        run ["lex", "m"] files .empty = .ok report ∧
        run ["lex", "--no-color", "m"] files .empty = .ok report' ∧
        report'.code = report.code ∧ report'.out = report.out ∧
        report'.err = withoutStyles report.err ∧ report.code = 1 := by
  intro source files cache ds options
  obtain ⟨renders, understood, runs⟩ := colors_change_styles_only
  have text : EscapeFree source := by decide
  have free : ∀ d ∈ ds, d.EscapeFreeIn cache := fun d mem =>
    (ofTokens_of_mem_tokenize mem).escapeFreeIn text (escapeFree_cacheOf (by decide) text)
  have line : Options.ofArguments ["lex", "m"] = .ok options := by decide +kernel
  have refusing : Options.ofArguments ["lex", "--no-color", "m"] = .ok options.uncolored := by
    decide +kernel
  have read : files.read "m" = .ok source := by
    simp only [files, Files.add, Files.read, Files.find, parts_name]
    decide +kernel
  have inputs : options.action.EscapeFree files .empty := by
    refine ⟨by decide, fun other same => ?_⟩
    obtain rfl := Except.ok.inj (read.symm.trans same)
    exact text
  obtain ⟨report, report', ran, ran', code, out, err⟩ :=
    runs ["lex"] ["m"] options options.uncolored files .empty line refusing rfl inputs
  refine ⟨free, (renders cache ds).2 free, line, rfl, understood _ _ line rfl, refusing, rfl,
    inputs, report, report', ran, ran', code, out, err, ?_⟩
  obtain rfl := Except.ok.inj ((run_of_ofArguments line files .empty).symm.trans ran)
  show (runFile options "m" .lex (files.read "m")).report.code = 1
  rw [read]
  decide +kernel

end Monkey.Command
