import Monkey.Parser.Window

/-! # Command lines

A command line is a list of global options, a subcommand, and the options and the
operand of that subcommand. It is read from left to right; what is wrong first is
what counts, and a request for the version ends the reading. -/

namespace Monkey.Command

/-- What is to be shown of a file: its tokens, or its program. -/
inductive FileTask where
  | lex
  | parse (recovery : Recovery) (tree : Bool)
deriving DecidableEq

/-- What a run is to do. -/
inductive Action where
  | version
  | file (path : String) (task : FileTask)
  | repl (tokens : Bool) (recovery : Recovery)
deriving DecidableEq

structure Options where
  action : Action
  /-- How often more logging was asked for. -/
  verbosity : Nat
  colored : Bool
deriving DecidableEq

inductive UsageError where
  | unknownArgument (argument : String)
  | repeatedOption (option : String)
  | badValue (option : String)
  | missingValue (option : String)
  | emptyPath
  | missingPath
  | missingSubcommand
deriving DecidableEq

def UsageError.message : UsageError → String
  | unknownArgument argument => s!"unexpected argument '{argument}'"
  | repeatedOption option => s!"'{option}' cannot be used more than once"
  | badValue option => s!"bad value in '{option}'"
  | missingValue option => s!"'{option}' needs a value"
  | emptyPath => "the path of the file is empty"
  | missingPath => "no file was given"
  | missingSubcommand => "no subcommand was given"

inductive Subcommand where
  | lex
  | parse
  | repl
deriving DecidableEq

def Subcommand.ofText? (text : String) : Option Subcommand :=
  if text = "lex" then some lex
  else if text = "parse" then some parse
  else if text = "repl" then some repl
  else none

/-- A place where options may stand: before the subcommand, or behind it. -/
inductive Scope where
  | top
  | under (subcommand : Subcommand)
deriving DecidableEq

inductive Flag where
  | verbose
  | noColor
  | version
  | recovery
  | tree
  | tokens
deriving DecidableEq

/-- The flags of a scope. More logging and no colors may be asked for everywhere. -/
def Scope.allows : Scope → Flag → Bool
  | _, .verbose | _, .noColor => true
  | .top, .version => true
  | .under .parse, .recovery | .under .parse, .tree => true
  | .under .repl, .recovery | .under .repl, .tokens => true
  | _, _ => false

def Flag.ofShort? (c : Char) : Option Flag :=
  if c = 'v' then some .verbose
  else if c = 'V' then some .version
  else if c = 'r' then some .recovery
  else none

def Flag.ofLong? (name : String) : Option Flag :=
  if name = "verbose" then some .verbose
  else if name = "no-color" then some .noColor
  else if name = "version" then some .version
  else if name = "recovery" then some .recovery
  else if name = "tree" then some .tree
  else if name = "tokens" then some .tokens
  else none

def recoveryOfText? (text : String) : Option Recovery :=
  if text = "skip" then some .skipToken
  else if text = "sync" then some .synchronize
  else none

/-- What has been read in one scope. -/
structure Settings where
  verbosity : Nat
  noColor : Bool
  recovery : Option Recovery
  tree : Bool
  tokens : Bool
  path : Option String

def Settings.initial : Settings := ⟨0, false, none, false, false, none⟩

namespace Settings

/-- Sets a flag without a value. Only the request for more logging may be repeated. -/
def set (s : Settings) (flag : Flag) (argument : String) : Except UsageError Settings :=
  match flag with
  | .verbose => .ok { s with verbosity := s.verbosity + 1 }
  | .noColor =>
    if s.noColor then .error (.repeatedOption argument) else .ok { s with noColor := true }
  | .tree => if s.tree then .error (.repeatedOption argument) else .ok { s with tree := true }
  | .tokens =>
    if s.tokens then .error (.repeatedOption argument) else .ok { s with tokens := true }
  | .version | .recovery => .error (.unknownArgument argument)

def setRecovery (s : Settings) (argument value : String) : Except UsageError Settings :=
  match recoveryOfText? value, s.recovery with
  | none, _ => .error (.badValue argument)
  | some _, some _ => .error (.repeatedOption argument)
  | some recovery, none => .ok { s with recovery := some recovery }

def setPath (s : Settings) (scope : Scope) (argument : String) : Except UsageError Settings :=
  match scope, s.path with
  | .under .lex, none | .under .parse, none =>
    if argument.isEmpty then .error .emptyPath else .ok { s with path := some argument }
  | _, _ => .error (.unknownArgument argument)

end Settings

/-- What comes after one argument: more of the scope, or the end with the version. -/
inductive Progress where
  | more (settings : Settings)
  /-- The next argument is the value of an option. -/
  | awaitsRecovery (settings : Settings)
  | version

/-- Reads the letters of a cluster of short options. An option with a value takes the
rest of the cluster, less an equals sign in front, or the next argument. -/
def readCluster (scope : Scope) (argument : String) (s : Settings) :
    List Char → Except UsageError Progress
  | [] => .ok (.more s)
  | c :: rest =>
    match (Flag.ofShort? c).filter scope.allows with
    | none => .error (.unknownArgument argument)
    | some .version => .ok .version
    | some .recovery =>
      match rest with
      | [] => .ok (.awaitsRecovery s)
      | '=' :: value => (s.setRecovery argument (String.ofList value)).map .more
      | value => (s.setRecovery argument (String.ofList value)).map .more
    | some flag =>
      match s.set flag argument with
      | .error error => .error error
      | .ok s => readCluster scope argument s rest

/-- Reads a long option, given without its dashes. -/
def readLong (scope : Scope) (argument : String) (s : Settings) (text : List Char) :
    Except UsageError Progress :=
  let name := text.takeWhile (· ≠ '=')
  let value? := (text.dropWhile (· ≠ '=')).tail?
  match (Flag.ofLong? (String.ofList name)).filter scope.allows, value? with
  | none, _ => .error (.unknownArgument argument)
  | some .version, none => .ok .version
  | some .recovery, none => .ok (.awaitsRecovery s)
  | some .recovery, some value => (s.setRecovery argument (String.ofList value)).map .more
  | some flag, none => (s.set flag argument).map .more
  | some _, some _ => .error (.badValue argument)

/-- What one argument is, by its dashes. A single dash is an operand. -/
inductive Shape where
  | operand
  | endOfOptions
  | short (letters : List Char)
  | long (text : List Char)

def Shape.of (argument : String) : Shape :=
  match argument.toList with
  | ['-'] => .operand
  | ['-', '-'] => .endOfOptions
  | '-' :: '-' :: text => .long text
  | '-' :: letters => .short letters
  | _ => .operand

/-- Reads an argument that is an option. -/
def readOption (scope : Scope) (argument : String) (s : Settings) :
    Shape → Except UsageError Progress
  | .long text => readLong scope argument s text
  | .short letters => readCluster scope argument s letters
  | .operand | .endOfOptions => .error (.unknownArgument argument)

/-- Reads the arguments behind a subcommand. -/
def readUnder (subcommand : Subcommand) (s : Settings) : List String → Except UsageError Settings
  | [] => .ok s
  | argument :: rest =>
    match Shape.of argument with
    | .operand =>
      match s.setPath (.under subcommand) argument with
      | .error error => .error error
      | .ok s => readUnder subcommand s rest
    | .endOfOptions =>
      rest.foldlM (fun s operand => Settings.setPath s (.under subcommand) operand) s
    | shape =>
      match readOption (.under subcommand) argument s shape with
      | .error error => .error error
      | .ok .version => .error (.unknownArgument argument)
      | .ok (.more s) => readUnder subcommand s rest
      | .ok (.awaitsRecovery s) =>
        match rest with
        | [] => .error (.missingValue argument)
        | value :: rest =>
          match s.setRecovery argument value with
          | .error error => .error error
          | .ok s => readUnder subcommand s rest

/-- The options of a run, from the settings before and behind the subcommand. The
count behind it goes before the count in front of it. -/
def Options.ofSettings (top under : Settings) (action : Action) : Options where
  action
  verbosity := if under.verbosity = 0 then top.verbosity else under.verbosity
  colored := !(top.noColor || under.noColor)

def versionOptions (s : Settings) : Options := ⟨.version, s.verbosity, !s.noColor⟩

def Settings.requirePath (s : Settings) : Except UsageError String :=
  match s.path with
  | none => .error .missingPath
  | some path => .ok path

/-- The action of a subcommand whose arguments are read. -/
def Subcommand.action (under : Settings) : Subcommand → Except UsageError Action
  | .lex => under.requirePath.map (.file · .lex)
  | .parse =>
    under.requirePath.map (.file · (.parse (under.recovery.getD .skipToken) under.tree))
  | .repl => .ok (.repl under.tokens (under.recovery.getD .skipToken))

/-- Reads the arguments from the front. -/
def readTop (top : Settings) : List String → Except UsageError Options
  | [] => .error .missingSubcommand
  | argument :: rest =>
    match Shape.of argument with
    | .operand =>
      match Subcommand.ofText? argument with
      | none => .error (.unknownArgument argument)
      | some subcommand =>
        match readUnder subcommand .initial rest with
        | .error error => .error error
        | .ok under => (subcommand.action under).map (Options.ofSettings top under)
    | shape =>
      match readOption .top argument top shape with
      | .error error => .error error
      | .ok .version => .ok (versionOptions top)
      | .ok (.more top) => readTop top rest
      | .ok (.awaitsRecovery _) => .error (.missingValue argument)

def Options.ofArguments (arguments : List String) : Except UsageError Options :=
  readTop .initial arguments

end Monkey.Command
