import LanguageDetection.Files
import LanguageDetection.Report

/-!
# Arguments

The arguments of a run and its environment, and what they ask the program to do.
-/

namespace LanguageDetection

/-! ## Invocations -/

/-- A command with its options. -/
inductive Command where
  /-- Tell the languages of files, or of the standard input. -/
  | detect (paths : List Path) (extension : Option String) (all : Bool)
      (format : Option OutputFormat)
  /-- Hold a declared language against a file, or the standard input. -/
  | validate (language : String) (path : Option Path) (extension : Option String)
      (format : Option OutputFormat) (strict : Bool)
  /-- List the supported languages. -/
  | languages (format : Option OutputFormat)
  /-- Write a settings document into the current directory. -/
  | init (force : Bool)

/-- A command with the options that all commands share. -/
structure Invocation where
  command : Command
  /-- The settings document asked for. -/
  config : Option Path
  /-- How much is to be told beside the output. -/
  verbosity : Nat
  /-- Whether colours are off. -/
  plain : Bool

/-- The level of the messages beside the output. -/
def verbosityLevel : Nat → String
  | 0 => "warn"
  | 1 => "info"
  | 2 => "debug"
  | _ => "trace"

/-! ## The environment -/

/-- What a run is told by the environment. -/
structure Environment where
  /-- The value of a variable, if it is set. -/
  value? : String → Option String
  toTerminal : Bool

namespace Environment

/-- The settings document that the environment names. -/
def config? (environment : Environment) : Option String :=
  environment.value? "CODESNIFF_CONFIG"

/-- Whether output is coloured. It is not if it is to be plain or if `NO_COLOR` is set, even to
nothing. Otherwise it is if `CLICOLOR_FORCE` is set to anything but `0`, or if it goes to a terminal
and `CLICOLOR` is not set to `0`. -/
def usesColour (environment : Environment) (plain : Bool) : Bool :=
  !plain && (environment.value? "NO_COLOR").isNone &&
    ((environment.value? "CLICOLOR_FORCE").any (· != "0") ||
      (environment.toTerminal && (environment.value? "CLICOLOR").all (· != "0")))

end Environment

/-!
## Options

The options of the command line and the commands that take them.
-/

namespace CommandLine

/-- What follows an option: nothing, nothing although it may be repeated, or a value. -/
inductive Arity where
  | flag
  | counter
  | value
deriving DecidableEq, Repr

/-- An option. -/
inductive CommandOption where
  | config
  | verbose
  | plain
  | help
  | version
  | ext
  | all
  | format
  | lang
  | strict
  | force
deriving DecidableEq, Repr

namespace CommandOption

/-- The name behind two dashes. -/
def long : CommandOption → String
  | config => "config"
  | verbose => "verbose"
  | plain => "plain"
  | help => "help"
  | version => "version"
  | ext => "ext"
  | all => "all"
  | format => "format"
  | lang => "lang"
  | strict => "strict"
  | force => "force"

/-- The letter behind one dash. -/
def short? : CommandOption → Option Char
  | verbose => some 'v'
  | help => some 'h'
  | version => some 'V'
  | format => some 'f'
  | lang => some 'l'
  | config | plain | ext | all | strict | force => none

/-- What follows the option. -/
def arity : CommandOption → Arity
  | verbose => .counter
  | config | ext | format | lang => .value
  | plain | help | version | all | strict | force => .flag

end CommandOption

/-- The name of a command. -/
inductive CommandName where
  | detect
  | validate
  | languages
  | init
deriving DecidableEq, Repr

namespace CommandName

/-- The commands in the order in which they are listed. -/
def every : List CommandName :=
  [detect, validate, languages, init]

/-- The name as written. -/
def id : CommandName → String
  | detect => "detect"
  | validate => "validate"
  | languages => "languages"
  | init => "init"

/-- The command with this name. -/
def ofId? (id : String) : Option CommandName :=
  every.find? (·.id == id)

/-- The options that only this command takes. -/
def ownOptions : CommandName → List CommandOption
  | detect => [.ext, .all, .format]
  | validate => [.lang, .ext, .format, .strict]
  | languages => [.format]
  | init => [.force]

/-- How many paths the command takes, if there is a limit. -/
def pathLimit : CommandName → Option Nat
  | detect => none
  | validate => some 1
  | languages | init => some 0

end CommandName

/-- The part of a command line that an argument belongs to: what stands before the command, or
what stands behind it. -/
abbrev Level := Option CommandName

/-- The options that may stand at a level. -/
def Level.options : Level → List CommandOption
  | none => [.config, .verbose, .plain, .help, .version]
  | some command => [.config, .verbose, .plain, .help] ++ command.ownOptions

/-!
## Reading arguments

Reading the arguments of a run. Options may stand on both sides of the command, those that all
commands share as well as those of the command behind it. A value or a path is looked at only when
the next argument that is known has been met, or when there is no other; so an argument that is
unknown is told of before a value that is wrong.
-/

/-- Why the arguments lead to no command. -/
inductive Refusal where
  /-- The help text is asked for. -/
  | helpRequested
  /-- The version is asked for. -/
  | versionRequested
  | noArguments
  | missingCommand
  | unknownCommand
  | unknownArgument
  /-- A value is attached to an option that takes none. -/
  | unexpectedValue
  /-- A value is missing or wrong. -/
  | invalidValue
  /-- An option that counts once is given twice. -/
  | repeatedOption
  /-- The declared language is missing. -/
  | missingLanguage
deriving DecidableEq, Repr

namespace Refusal

/-- The exit status of the program: a request is no failure. -/
def exitCode : Refusal → Nat
  | helpRequested | versionRequested => 0
  | noArguments | missingCommand | unknownCommand | unknownArgument | unexpectedValue
  | invalidValue | repeatedOption | missingLanguage => 2

end Refusal

/-- The options and paths read at one level. -/
structure Given where
  config : Option Path := none
  verbosity : Nat := 0
  plain : Bool := false
  ext : Option String := none
  all : Bool := false
  format : Option OutputFormat := none
  lang : Option String := none
  strict : Bool := false
  force : Bool := false
  paths : List Path := []

namespace Given

/-- The largest count of a repeated option. -/
def maxVerbosity : Nat := 255

/-- The path of a text, which must not be empty. -/
def readPath (text : String) : Except Refusal Path :=
  if text.isEmpty then .error .invalidValue else .ok (.ofString text)

/-- The output format of a text. -/
def readFormat (text : String) : Except Refusal OutputFormat :=
  match OutputFormat.ofId? text with
  | some format => .ok format
  | none => .error .invalidValue

/-- Whether an option that counts once is given. -/
def has (given : Given) : CommandOption → Bool
  | .config => given.config.isSome
  | .plain => given.plain
  | .ext => given.ext.isSome
  | .all => given.all
  | .format => given.format.isSome
  | .lang => given.lang.isSome
  | .strict => given.strict
  | .force => given.force
  | .verbose | .help | .version => false

/-- An option with its value, which is empty if it takes none. -/
def put (given : Given) (option : CommandOption) (value : String) : Except Refusal Given :=
  if given.has option then .error .repeatedOption
  else
    match option with
    | .help => .error .helpRequested
    | .version => .error .versionRequested
    | .config => do return { given with config := ← readPath value }
    | .format => do return { given with format := ← readFormat value }
    | .verbose => .ok { given with verbosity := min (given.verbosity + 1) maxVerbosity }
    | .ext => .ok { given with ext := value }
    | .lang => .ok { given with lang := value }
    | .plain => .ok { given with plain := true }
    | .all => .ok { given with all := true }
    | .strict => .ok { given with strict := true }
    | .force => .ok { given with force := true }

/-- More paths. -/
def putPaths (given : Given) (texts : List String) : Except Refusal Given := do
  return { given with paths := given.paths ++ (← texts.mapM readPath) }

/-- Whether nothing at all is given. -/
def isEmpty (given : Given) : Bool :=
  given.config.isNone && given.verbosity = 0 && !given.plain

end Given

/-- What has been read but not yet looked at. -/
inductive Pending where
  | nothing
  /-- An option whose value is to follow. -/
  | awaiting (option : CommandOption)
  | value (option : CommandOption) (text : String)
  | paths (texts : List String)

/-- How far the arguments of a level have been read. -/
structure Progress where
  given : Given := {}
  pending : Pending := .nothing
  /-- Whether two dashes have ended the options. -/
  onlyPaths : Bool := false

namespace Progress

/-- Looks at what is pending. -/
def settle (progress : Progress) : Except Refusal Progress := do
  let given ←
    match progress.pending with
    | .nothing => pure progress.given
    | .awaiting _ => throw .invalidValue
    | .value option text => progress.given.put option text
    | .paths texts => progress.given.putPaths texts
  return { progress with given, pending := .nothing }

/-- An option that is known, and the value attached to it, if any. -/
def option (progress : Progress) (option : CommandOption) (attached : Option String) :
    Except Refusal Progress := do
  match option.arity, attached with
  | .value, some value =>
    let progress ← progress.settle
    return { progress with given := ← progress.given.put option value }
  | .value, none => return { ← progress.settle with pending := .awaiting option }
  | .flag, some _ | .counter, some _ => throw .unexpectedValue
  | .flag, none | .counter, none =>
    let progress ← progress.settle
    return { progress with given := ← progress.given.put option "" }

/-- An option by its name. -/
def long (progress : Progress) (level : Level) (name : List Char) (attached : Option String) :
    Except Refusal Progress :=
  match level.options.find? fun option => option.long.toList == name with
  | some option => progress.option option attached
  | none => .error .unknownArgument

/-- Options by their letters. What stands behind the letter of an option with a value, and behind
an equals sign if there is one, is the value. -/
def letters (progress : Progress) (level : Level) : List Char → Except Refusal Progress
  | [] => .ok progress
  | letter :: rest =>
    match level.options.find? (·.short? == some letter) with
    | none => .error .unknownArgument
    | some option =>
      if option.arity = .value then
        progress.option option <|
          match rest with
          | [] => none
          | '=' :: value => some (String.ofList value)
          | value => some (String.ofList value)
      else do letters (← progress.option option none) level rest

/-- A path, or what would be one if the level took paths. -/
def path (progress : Progress) (level : Level) (argument : String) : Except Refusal Progress :=
  match level with
  | none =>
    .error <|
      if progress.onlyPaths && (argument == "help" || (CommandName.ofId? argument).isSome) then
        .unknownArgument
      else .unknownCommand
  | some command =>
    let (earlier, texts) :=
      match progress.pending with
      | .paths texts => (progress.given.paths.length + texts.length, texts)
      | _ => (progress.given.paths.length, [])
    if command.pathLimit.any (· ≤ earlier) then .error .unknownArgument
    else if texts.isEmpty then do return { ← progress.settle with pending := .paths [argument] }
    else .ok { progress with pending := .paths (texts ++ [argument]) }

/-- An argument that is not the name of a command. -/
def argument (progress : Progress) (level : Level) (argument : String) :
    Except Refusal Progress :=
  if progress.onlyPaths then progress.path level argument
  else
    match argument.toList with
    | ['-', '-'] => .ok { progress with onlyPaths := true }
    | '-' :: '-' :: text =>
      let (name, attached) := text.span (· != '=')
      progress.long level name (attached.tail?.map String.ofList)
    | '-' :: letter :: rest => progress.letters level (letter :: rest)
    | _ =>
      match progress.pending with
      | .awaiting option => .ok { progress with pending := .value option argument }
      | _ => progress.path level argument

/-- Whether the next argument may be the name of a command. -/
def mayEnd (progress : Progress) (level : Level) : Bool :=
  match progress.pending with
  | .awaiting _ => false
  | _ => level.isNone && !progress.onlyPaths

/-- The options of a level once all of its arguments are read; `fallback` is the settings document
that the environment names. -/
def finish (progress : Progress) (fallback : Option String) : Except Refusal Given := do
  let given := (← progress.settle).given
  match given.config, fallback with
  | none, some path => discard <| Given.readPath path
  | _, _ => pure ()
  return given

end Progress

/-- The refusal of a request for help on a command. -/
def helpOn : List String → Refusal
  | [] => .helpRequested
  | [command] =>
    if command == "help" || (CommandName.ofId? command).isSome then .helpRequested
    else .unknownCommand
  | _ => .unknownCommand

/-- Reads the arguments of a level up to the name of a command, which is given with the arguments
behind it. -/
def readLevel (level : Level) :
    Progress → List String → Except Refusal (Progress × Option (CommandName × List String))
  | progress, [] => .ok (progress, none)
  | progress, argument :: rest =>
    match progress.mayEnd level, CommandName.ofId? argument with
    | true, some command => .ok (progress, some (command, rest))
    | true, none =>
      if argument == "help" then .error (helpOn rest)
      else do readLevel level (← progress.argument level argument) rest
    | false, _ => do readLevel level (← progress.argument level argument) rest

/-- The command made of its options. -/
def CommandName.command (name : CommandName) (given : Given) : Except Refusal Command :=
  match name with
  | detect => .ok (.detect given.paths given.ext given.all given.format)
  | validate =>
    match given.lang with
    | some language =>
      .ok (.validate language given.paths.head? given.ext given.format given.strict)
    | none => .error .missingLanguage
  | languages => .ok (.languages given.format)
  | init => .ok (.init given.force)

/-- The run that the arguments ask for. An option behind the command counts before the same one in
front of it, and that before the environment. -/
def readArguments (arguments : List String) (fallback : Option String) :
    Except Refusal Invocation := do
  match ← readLevel none {} arguments with
  | (outer, none) =>
    let outer ← outer.finish fallback
    throw (if outer.isEmpty && fallback.isNone then .noArguments else .missingCommand)
  | (outer, some (name, rest)) =>
    let (inner, _) ← readLevel (some name) {} rest
    let inner ← inner.finish fallback
    let command ← name.command inner
    let outer ← outer.finish fallback
    return { command
             config := inner.config.or (outer.config.or (fallback.map Path.ofString))
             verbosity := if inner.verbosity = 0 then outer.verbosity else inner.verbosity
             plain := inner.plain || outer.plain }

end CommandLine

end LanguageDetection
