import Monkey.Command.Options

/-! # Refusing colors

Colors may be refused in front of a subcommand and behind it. Main statement: a command line that
is understood with the refusal and without it stands for the same run, with colors and without,
wherever the refusal is put. -/

namespace Monkey.Command

/-- The same settings with colors refused. -/
def Settings.uncolored (s : Settings) : Settings := { s with noColor := true }

/-- The same options with colors refused. -/
def Options.uncolored (options : Options) : Options := { options with colored := false }

def Progress.uncolored : Progress → Progress
  | more s => more s.uncolored
  | awaitsRecovery s => awaitsRecovery s.uncolored
  | version => version

/-- Whether colors are refused behind an argument that was read from some settings. -/
def Progress.refuses (s : Settings) : Progress → Bool
  | more s' | awaitsRecovery s' => s'.noColor
  | version => s.noColor

/-! ## Readings that agree -/

/-- Where both readings succeed, their results are related. -/
def Agree {α β ε : Type} (R : α → β → Prop) (x : Except ε α) (y : Except ε β) : Prop :=
  ∀ a b, x = .ok a → y = .ok b → R a b

namespace Agree

variable {α β γ δ ε : Type} {R : α → β → Prop} {S : γ → δ → Prop} {x : Except ε α} {y : Except ε β}

theorem ok {a : α} {b : β} (h : R a b) : Agree (ε := ε) R (.ok a) (.ok b) := by
  rintro _ _ ⟨⟩ ⟨⟩
  exact h

theorem error_left (e : ε) : Agree R (.error e) y := nofun

theorem error_right (e : ε) : Agree R x (.error e) := nofun

theorem refl (x : Except ε α) : Agree (· = ·) x x := fun _ _ h h' => Except.ok.inj (h.symm.trans h')

/-- Readings that agree are read on alike. -/
theorem bind {f : α → Except ε γ} {g : β → Except ε δ} (h : Agree R x y)
    (rest : ∀ a b, R a b → Agree S (f a) (g b)) : Agree S (x >>= f) (y >>= g) := by
  cases x with
  | error e => exact error_left e
  | ok a =>
    cases y with
    | error e => exact error_right e
    | ok b => exact rest a b (h a b rfl rfl)

theorem map {f : α → γ} {g : β → δ} (h : Agree R x y) (same : ∀ a b, R a b → S (f a) (g b)) :
    Agree S (x.map f) (y.map g) :=
  h.bind fun a b related => ok (same a b related)

end Agree

/-! ## Readings with colors refused -/

/-- A reading, and the same with colors refused before it. Refused colors stay refused. As long
as they are not, the second reading succeeds with the first one, and where both succeed, the
result of the second is that of the first with colors refused. -/
structure Alike {α : Type} (before : Bool) (refuses : α → Bool) (uncolored : α → α)
    (x y : Except UsageError α) : Prop where
  kept : ∀ a, x = .ok a → before = true → refuses a = true
  follows : ∀ a, x = .ok a → refuses a = false → y = .ok (uncolored a)
  agrees : Agree (uncolored · = ·) x y

namespace Alike

variable {α β : Type} {before : Bool} {refuses : α → Bool} {uncolored : α → α}
  {refuses' : β → Bool} {uncolored' : β → β} {x y : Except UsageError α}

theorem ok {a : α} (kept : before = true → refuses a = true) :
    Alike before refuses uncolored (.ok a) (.ok (uncolored a)) := by
  refine ⟨?_, ?_, ?_⟩
  · rintro _ ⟨⟩
    exact kept
  · rintro _ ⟨⟩ _
    rfl
  · exact .ok rfl

theorem error (e : UsageError) : Alike before refuses uncolored (.error e) y :=
  ⟨nofun, nofun, .error_left e⟩

/-- The second reading may fail when the first one has come upon a refusal. -/
theorem refused {a : α} (h : refuses a = true) (e : UsageError) :
    Alike before refuses uncolored (.ok a) (.error e) := by
  refine ⟨?_, ?_, ?_⟩
  · rintro _ ⟨⟩ _
    exact h
  · rintro _ ⟨⟩ colored
    cases h.symm.trans colored
  · exact .error_right e

/-- Readings that are alike are read on alike. -/
theorem bind {f g : α → Except UsageError β} (h : Alike before refuses uncolored x y)
    (rest : ∀ a, Alike (refuses a) refuses' uncolored' (f a) (g (uncolored a))) :
    Alike before refuses' uncolored' (x >>= f) (y >>= g) := by
  cases x with
  | error e => exact error e
  | ok a =>
    refine ⟨?_, ?_, ?_⟩
    · exact fun b read before => (rest a).kept b read (h.kept a rfl before)
    · intro b read colored
      have coloredBefore : refuses a = false := by
        cases refused : refuses a with
        | false => rfl
        | true => exact ((rest a).kept b read refused).symm.trans colored
      rw [h.follows a rfl coloredBefore]
      exact (rest a).follows b read colored
    · refine h.agrees.bind ?_
      rintro a _ rfl
      exact (rest a).agrees

theorem map {f : α → β} (h : Alike before refuses uncolored x y)
    (same : ∀ a, f (uncolored a) = uncolored' (f a)) (kept : ∀ a, refuses a = refuses' (f a)) :
    Alike before refuses' uncolored' (x.map f) (y.map f) :=
  h.bind fun a => by
    show Alike _ _ _ (.ok (f a)) (.ok (f (uncolored a)))
    rw [same]
    exact ok fun refused => (kept a).symm.trans refused

end Alike

/-- Settings that are read from some settings, and from those with colors refused. -/
abbrev Settings.ReadAlike (s : Settings) (x y : Except UsageError Settings) : Prop :=
  Alike s.noColor Settings.noColor Settings.uncolored x y

/-- What an argument gives from some settings, and from those with colors refused. -/
abbrev Progress.ReadAlike (s : Settings) (x y : Except UsageError Progress) : Prop :=
  Alike s.noColor (Progress.refuses s) Progress.uncolored x y

theorem Settings.ReadAlike.more {s : Settings} {x y : Except UsageError Settings}
    (h : s.ReadAlike x y) : Progress.ReadAlike s (x.map .more) (y.map .more) :=
  Alike.map h (fun _ => rfl) fun _ => rfl

/-! ## One argument -/

variable {scope : Scope} {argument : String} {subcommand : Subcommand}

theorem readAlike_set (s : Settings) (flag : Flag) (argument : String) :
    s.ReadAlike (s.set flag argument) (s.uncolored.set flag argument) := by
  cases flag with
  | verbose => exact .ok id
  | noColor =>
    -- Colors are refused once in a scope, so the second reading fails.
    show s.ReadAlike (if s.noColor then .error (.repeatedOption argument) else .ok s.uncolored)
      (.error (.repeatedOption argument))
    split
    · exact .error _
    · exact Alike.refused (a := s.uncolored) rfl _
  | version | recovery => exact .error _
  | tree =>
    cases tree : s.tree <;> simp only [Settings.set, Settings.uncolored, tree]
    · exact .ok id
    · exact .error _
  | tokens =>
    cases tokens : s.tokens <;> simp only [Settings.set, Settings.uncolored, tokens]
    · exact .ok id
    · exact .error _

theorem readAlike_setRecovery (s : Settings) (argument value : String) :
    s.ReadAlike (s.setRecovery argument value) (s.uncolored.setRecovery argument value) := by
  unfold Settings.setRecovery
  cases recoveryOfText? value with
  | none => exact .error _
  | some recovery =>
    cases read : s.recovery <;> simp only [Settings.uncolored, read]
    · exact .ok id
    · exact .error _

/-- A file is named once, and where a subcommand has one. -/
theorem setPath_eq_ok_iff {s s' : Settings} :
    s.setPath scope argument = .ok s' ↔
      s.path = none ∧ (scope = .under .lex ∨ scope = .under .parse) ∧ argument.isEmpty = false ∧
        s' = { s with path := some argument } := by
  constructor
  · intro h
    unfold Settings.setPath at h
    split at h
    · rename_i free
      split at h
      · cases h
      · rename_i named
        exact ⟨free, .inl rfl, by simpa using named, (Except.ok.inj h).symm⟩
    · rename_i free
      split at h
      · cases h
      · rename_i named
        exact ⟨free, .inr rfl, by simpa using named, (Except.ok.inj h).symm⟩
    · cases h
  · rintro ⟨free, rfl | rfl, named, rfl⟩ <;> simp [Settings.setPath, free, named]

theorem readAlike_setPath (s : Settings) (scope : Scope) (argument : String) :
    s.ReadAlike (s.setPath scope argument) (s.uncolored.setPath scope argument) := by
  refine ⟨?_, ?_, ?_⟩
  · intro s' read refused
    obtain ⟨_, _, _, rfl⟩ := setPath_eq_ok_iff.mp read
    exact refused
  · intro s' read _
    obtain ⟨free, allowed, named, rfl⟩ := setPath_eq_ok_iff.mp read
    exact setPath_eq_ok_iff.mpr ⟨free, allowed, named, rfl⟩
  · intro s' s'' read read'
    obtain ⟨_, _, _, rfl⟩ := setPath_eq_ok_iff.mp read
    obtain ⟨_, _, _, rfl⟩ := setPath_eq_ok_iff.mp read'
    rfl

theorem readAlike_foldlM_setPath (s : Settings) (scope : Scope) (operands : List String) :
    s.ReadAlike (operands.foldlM (Settings.setPath · scope) s)
      (operands.foldlM (Settings.setPath · scope) s.uncolored) := by
  induction operands generalizing s with
  | nil => exact .ok id
  | cons operand rest ih =>
    rw [List.foldlM_cons, List.foldlM_cons]
    exact (readAlike_setPath s scope operand).bind ih

theorem flag_of_short {c : Char} {flag : Flag} (h : Flag.ofShort? c = some flag) :
    flag = .verbose ∨ flag = .version ∨ flag = .recovery := by
  unfold Flag.ofShort? at h
  split at h
  · exact .inl (Option.some.inj h).symm
  · split at h
    · exact .inr (.inl (Option.some.inj h).symm)
    · split at h
      · exact .inr (.inr (Option.some.inj h).symm)
      · cases h

theorem readAlike_readCluster (s : Settings) (letters : List Char) :
    Progress.ReadAlike s (readCluster scope argument s letters)
      (readCluster scope argument s.uncolored letters) := by
  induction letters generalizing s with
  | nil => exact .ok id
  | cons c rest ih =>
    unfold readCluster
    split
    · exact .error _
    · exact .ok id
    · split
      · exact .ok id
      · exact (readAlike_setRecovery s argument _).more
      · exact (readAlike_setRecovery s argument _).more
    · rename_i flag notVersion notRecovery short
      obtain ⟨found, _⟩ := Option.filter_eq_some_iff.mp short
      rcases flag_of_short found with rfl | rfl | rfl
      · exact ih { s with verbosity := s.verbosity + 1 }
      · exact absurd rfl notVersion
      · exact absurd rfl notRecovery

theorem readAlike_readLong (s : Settings) (text : List Char) :
    Progress.ReadAlike s (readLong scope argument s text)
      (readLong scope argument s.uncolored text) := by
  unfold readLong
  dsimp only
  split
  · exact .error _
  · exact .ok id
  · exact .ok id
  · exact (readAlike_setRecovery s argument _).more
  · exact (readAlike_set s _ argument).more
  · exact .error _

theorem readAlike_readOption (s : Settings) (shape : Shape) :
    Progress.ReadAlike s (readOption scope argument s shape)
      (readOption scope argument s.uncolored shape) := by
  cases shape with
  | long text => exact readAlike_readLong s text
  | short letters => exact readAlike_readCluster s letters
  | operand | endOfOptions => exact .error _

theorem shape_noColor : Shape.of "--no-color" = .long "no-color".toList := rfl

/-- Colors are refused in every scope. -/
theorem readOption_noColor (scope : Scope) (s : Settings) :
    readOption scope "--no-color" s (Shape.of "--no-color") =
      if s.noColor then .error (.repeatedOption "--no-color") else .ok (.more s.uncolored) := by
  have name : Flag.ofLong? (String.ofList ("no-color".toList.takeWhile (· ≠ '='))) =
    some .noColor := rfl
  have value : ("no-color".toList.dropWhile (· ≠ '=')).tail? = none := rfl
  have allowed : (some Flag.noColor).filter scope.allows = some .noColor := by
    cases scope <;> rfl
  rw [shape_noColor, readOption, readLong]
  simp only [name, value, allowed]
  show (s.set .noColor "--no-color").map Progress.more = _
  cases refused : s.noColor <;> simp [Settings.set, refused, Except.map, Settings.uncolored]

theorem exists_setPath_of_foldlM {s s' : Settings} {operands : List String}
    (h : (argument :: operands).foldlM (Settings.setPath · scope) s = .ok s') :
    ∃ named, s.setPath scope argument = .ok named ∧
      operands.foldlM (Settings.setPath · scope) named = .ok s' := by
  rw [List.foldlM_cons] at h
  cases first : s.setPath scope argument with
  | error e =>
    rw [first] at h
    cases h
  | ok named =>
    rw [first] at h
    exact ⟨named, rfl, h⟩

/-- The first operand is the file, and no other follows it. -/
theorem of_foldlM_setPath_cons {s s' : Settings} {operands : List String}
    (h : (argument :: operands).foldlM (Settings.setPath · scope) s = .ok s') :
    s.path = none ∧ scope ≠ .under .repl ∧ operands = [] := by
  obtain ⟨_, first, more⟩ := exists_setPath_of_foldlM h
  obtain ⟨free, allowed, _, rfl⟩ := setPath_eq_ok_iff.mp first
  refine ⟨free, by rcases allowed with rfl | rfl <;> nofun, ?_⟩
  cases operands with
  | nil => rfl
  | cons operand operands =>
    obtain ⟨_, second, _⟩ := exists_setPath_of_foldlM more
    cases (setPath_eq_ok_iff.mp second).1

/-- If one operand more can be read, there is no other. -/
theorem of_foldlM_setPath {s s' s'' : Settings} {before after : List String}
    (without : (before ++ after).foldlM (Settings.setPath · scope) s = .ok s')
    (whole : (before ++ argument :: after).foldlM (Settings.setPath · scope) s = .ok s'') :
    s'.path = none ∧ scope ≠ .under .repl := by
  cases before with
  | nil =>
    obtain ⟨free, allowed, rfl⟩ := of_foldlM_setPath_cons whole
    obtain rfl := Except.ok.inj without
    exact ⟨free, allowed⟩
  | cons operand before =>
    obtain ⟨_, _, none⟩ := of_foldlM_setPath_cons whole
    exact absurd none (List.append_ne_nil_of_right_ne_nil before (List.cons_ne_nil _ _))

/-! ## One argument behind the other -/

section

variable {s : Settings} {rest : List String}

theorem readUnder_operand (shape : Shape.of argument = .operand) :
    readUnder subcommand s (argument :: rest) =
      s.setPath (.under subcommand) argument >>= (readUnder subcommand · rest) := by
  rw [readUnder, shape]
  cases s.setPath (.under subcommand) argument <;> rfl

theorem readUnder_endOfOptions (shape : Shape.of argument = .endOfOptions) :
    readUnder subcommand s (argument :: rest) =
      rest.foldlM (Settings.setPath · (.under subcommand)) s := by
  rw [readUnder, shape]

/-- Reads on behind an option. -/
def readBehind (subcommand : Subcommand) (argument : String) (rest : List String) :
    Progress → Except UsageError Settings
  | .version => .error (.unknownArgument argument)
  | .more s => readUnder subcommand s rest
  | .awaitsRecovery s =>
    match rest with
    | [] => .error (.missingValue argument)
    | value :: rest => s.setRecovery argument value >>= (readUnder subcommand · rest)

theorem readUnder_option (notOperand : Shape.of argument ≠ .operand)
    (notEnd : Shape.of argument ≠ .endOfOptions) :
    readUnder subcommand s (argument :: rest) =
      readOption (.under subcommand) argument s (Shape.of argument) >>=
        readBehind subcommand argument rest := by
  rw [readUnder]
  split
  · rename_i operand
    exact absurd operand notOperand
  · rename_i ending
    exact absurd ending notEnd
  · generalize readOption (.under subcommand) argument s (Shape.of argument) = result
    cases result with
    | error e => rfl
    | ok p =>
      cases p with
      | version | more => rfl
      | awaitsRecovery s' =>
        cases rest with
        | nil => rfl
        | cons value rest =>
          cases read : s'.setRecovery argument value <;>
            simp only [bind, Except.bind, readBehind, read]

theorem readUnder_noColor :
    readUnder subcommand s ("--no-color" :: rest) =
      if s.noColor then .error (.repeatedOption "--no-color")
      else readUnder subcommand s.uncolored rest := by
  have notOperand : Shape.of "--no-color" ≠ .operand := by
    rw [shape_noColor]
    nofun
  have notEnd : Shape.of "--no-color" ≠ .endOfOptions := by
    rw [shape_noColor]
    nofun
  rw [readUnder_option notOperand notEnd, readOption_noColor]
  split <;> rfl

theorem readTop_operand (shape : Shape.of argument = .operand) :
    readTop s (argument :: rest) =
      match Subcommand.ofText? argument with
      | none => .error (.unknownArgument argument)
      | some subcommand => readUnder subcommand .initial rest >>= fun under =>
        (subcommand.action under).map (Options.ofSettings s under) := by
  rw [readTop, shape]
  cases Subcommand.ofText? argument with
  | none => rfl
  | some subcommand =>
    dsimp only
    cases readUnder subcommand .initial rest <;> rfl

/-- Reads on behind an option in front of the subcommand. -/
def readTopBehind (top : Settings) (argument : String) (rest : List String) :
    Progress → Except UsageError Options
  | .version => .ok (versionOptions top)
  | .more top => readTop top rest
  | .awaitsRecovery _ => .error (.missingValue argument)

theorem readTop_option (notOperand : Shape.of argument ≠ .operand) :
    readTop s (argument :: rest) =
      readOption .top argument s (Shape.of argument) >>= readTopBehind s argument rest := by
  rw [readTop]
  split
  · rename_i operand
    exact absurd operand notOperand
  · generalize readOption .top argument s (Shape.of argument) = result
    cases result with
    | error e => rfl
    | ok p => cases p <;> rfl

theorem readTop_noColor :
    readTop s ("--no-color" :: rest) =
      if s.noColor then .error (.repeatedOption "--no-color") else readTop s.uncolored rest := by
  have notOperand : Shape.of "--no-color" ≠ .operand := by
    rw [shape_noColor]
    nofun
  rw [readTop_option notOperand, readOption_noColor]
  split <;> rfl

end

/-! ## Whole command lines -/

/-- Behind a subcommand, settings with colors refused are read on alike. -/
theorem readAlike_readUnder (s : Settings) (arguments : List String) :
    s.ReadAlike (readUnder subcommand s arguments)
      (readUnder subcommand s.uncolored arguments) := by
  -- An option takes its value with it, so the induction is on the number of arguments.
  induction size : arguments.length using Nat.strongRecOn generalizing s arguments with
  | _ n ih =>
    subst size
    cases arguments with
    | nil => exact .ok id
    | cons argument rest =>
      have behind : ∀ s : Settings, s.ReadAlike (readUnder subcommand s rest)
          (readUnder subcommand s.uncolored rest) := fun s =>
        ih rest.length (Nat.lt_succ_self _) s rest rfl
      by_cases operand : Shape.of argument = .operand
      · rw [readUnder_operand operand, readUnder_operand operand]
        exact (readAlike_setPath s _ argument).bind behind
      by_cases ending : Shape.of argument = .endOfOptions
      · rw [readUnder_endOfOptions ending, readUnder_endOfOptions ending]
        exact readAlike_foldlM_setPath s _ rest
      rw [readUnder_option operand ending, readUnder_option operand ending]
      refine (readAlike_readOption s _).bind fun p => ?_
      cases p with
      | version => exact .error _
      | more s => exact behind s
      | awaitsRecovery s =>
        cases rest with
        | nil => exact .error _
        | cons value rest =>
          refine (readAlike_setRecovery s argument value).bind fun s => ih rest.length ?_ s rest rfl
          simp only [List.length_cons]
          omega

/-- What is read behind a subcommand with one refusal less and with it. The refusal may have been
taken for the file, and then there is none without it. -/
def Settings.Refused (subcommand : Subcommand) (s s' : Settings) : Prop :=
  s.uncolored = s' ∨ s.path = none ∧ subcommand ≠ .repl

theorem agree_readUnder_refusal (s : Settings) (before after : List String) :
    Agree (Settings.Refused subcommand) (readUnder subcommand s (before ++ after))
      (readUnder subcommand s (before ++ "--no-color" :: after)) := by
  induction size : before.length using Nat.strongRecOn generalizing s before with
  | _ n ih =>
    subst size
    cases before with
    | nil =>
      rw [List.nil_append, List.nil_append, readUnder_noColor]
      split
      · exact .error_right _
      · exact fun a b first second => .inl ((readAlike_readUnder s after).agrees a b first second)
    | cons argument before =>
      have behind : ∀ s s' : Settings, s = s' →
          Agree (Settings.Refused subcommand) (readUnder subcommand s (before ++ after))
            (readUnder subcommand s' (before ++ "--no-color" :: after)) := by
        rintro s _ rfl
        exact ih before.length (Nat.lt_succ_self _) s before rfl
      rw [List.cons_append, List.cons_append]
      by_cases operand : Shape.of argument = .operand
      · rw [readUnder_operand operand, readUnder_operand operand]
        exact (Agree.refl _).bind behind
      by_cases ending : Shape.of argument = .endOfOptions
      · rw [readUnder_endOfOptions ending, readUnder_endOfOptions ending]
        intro a b first second
        obtain ⟨unnamed, allowed⟩ := of_foldlM_setPath first second
        exact .inr ⟨unnamed, fun repl => allowed (congrArg Scope.under repl)⟩
      rw [readUnder_option operand ending, readUnder_option operand ending]
      refine (Agree.refl _).bind ?_
      rintro p _ rfl
      cases p with
      | version => exact .error_left _
      | more s => exact behind s _ rfl
      | awaitsRecovery s =>
        cases before with
        | nil => exact .error_right _
        | cons value before =>
          refine (Agree.refl (s.setRecovery argument value)).bind ?_
          rintro s _ rfl
          refine ih before.length ?_ s before rfl
          simp only [List.length_cons]
          omega

/-- In front of the subcommand, settings with colors refused are read on alike. -/
theorem readAlike_readTop (top : Settings) (arguments : List String) :
    Alike top.noColor (!Options.colored ·) Options.uncolored (readTop top arguments)
      (readTop top.uncolored arguments) := by
  induction arguments generalizing top with
  | nil => exact .error _
  | cons argument rest ih =>
    by_cases operand : Shape.of argument = .operand
    · rw [readTop_operand operand, readTop_operand operand]
      cases Subcommand.ofText? argument with
      | none => exact .error _
      | some subcommand =>
        dsimp only
        cases readUnder subcommand .initial rest with
        | error e => exact .error e
        | ok under =>
          show Alike _ _ _ ((subcommand.action under).map (Options.ofSettings top under))
            ((subcommand.action under).map (Options.ofSettings top.uncolored under))
          cases subcommand.action under with
          | error e => exact .error e
          | ok action =>
            refine Alike.ok (a := Options.ofSettings top under action) fun refused => ?_
            simp [Options.ofSettings, refused]
    · rw [readTop_option operand, readTop_option operand]
      refine (readAlike_readOption top _).bind fun p => ?_
      cases p with
      | version =>
        refine Alike.ok (a := versionOptions top) fun refused => ?_
        simpa [versionOptions, Progress.refuses] using refused
      | more top => exact ih top
      | awaitsRecovery => exact .error _

theorem Subcommand.action_uncolored (subcommand : Subcommand) (under : Settings) :
    subcommand.action under.uncolored = subcommand.action under := by
  cases subcommand <;> rfl

/-- What a refusal changes, put anywhere: colors, or nothing if only the version is told. -/
theorem agree_readTop_refusal (top : Settings) (before after : List String) :
    Agree (fun o o' => o.uncolored = o' ∨ o = o' ∧ o.action = .version)
      (readTop top (before ++ after)) (readTop top (before ++ "--no-color" :: after)) := by
  induction before generalizing top with
  | nil =>
    rw [List.nil_append, List.nil_append, readTop_noColor]
    split
    · exact .error_right _
    · exact fun a b first second => .inl ((readAlike_readTop top after).agrees a b first second)
  | cons argument before ih =>
    rw [List.cons_append, List.cons_append]
    by_cases operand : Shape.of argument = .operand
    · rw [readTop_operand operand, readTop_operand operand]
      cases Subcommand.ofText? argument with
      | none => exact .error_left _
      | some subcommand =>
        refine (agree_readUnder_refusal .initial before after).bind ?_
        rintro under under' (rfl | ⟨unnamed, allowed⟩)
        · rw [Subcommand.action_uncolored]
          refine (Agree.refl (subcommand.action under)).map ?_
          rintro action _ rfl
          refine .inl ?_
          exact congrArg (Options.mk action _) (congrArg not (Bool.or_true top.noColor).symm)
        · cases subcommand with
          | repl => exact absurd rfl allowed
          | lex | parse =>
            simp only [Subcommand.action, Settings.requirePath, unnamed]
            exact .error_left _
    · rw [readTop_option operand, readTop_option operand]
      refine (Agree.refl _).bind ?_
      rintro p _ rfl
      cases p with
      | version => exact .ok (.inr ⟨rfl, rfl⟩)
      | more top => exact ih top
      | awaitsRecovery => exact .error_left _

/-- In front of a command line with colors they can always be refused. -/
theorem ofArguments_noColor_cons {line : List String} {options : Options}
    (h : Options.ofArguments line = .ok options) (colored : options.colored = true) :
    Options.ofArguments ("--no-color" :: line) = .ok options.uncolored := by
  rw [Options.ofArguments, readTop_noColor, if_neg nofun]
  exact (readAlike_readTop .initial line).follows options h (by rw [colored]; rfl)

end Monkey.Command
