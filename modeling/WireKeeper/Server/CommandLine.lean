/-! # The command line

The server takes one option, the file of its settings, and answers two questions about itself.

`Request.parse` reads the arguments. An option that still waits for its value is settled before the
next one is looked at; the first fault ends the reading, except that an unknown argument is reported
before a missing value. -/

namespace WireKeeper

/-- What is asked of the program: to run, or to say something about itself. -/
inductive Request where
  /-- Run, with settings from a given file or from the system's. -/
  | run (config : Option String)
  | help
  | version
  deriving DecidableEq, Repr

/-- Why arguments are refused; the program then ends before it has read any settings. -/
inductive UsageError where
  | unexpected (argument : String)
  | missingValue
  | repeated
  /-- A value for a flag that takes none. -/
  | unexpectedValue (value flag : String)
  deriving DecidableEq, Repr

/-- The first line of what is said about an error, with the argument as it was given. -/
def UsageError.message : UsageError → String
  | .unexpected argument => s!"error: unexpected argument '{argument}' found"
  | .missingValue =>
    "error: a value is required for '--config <CONFIG>' but none was supplied"
  | .repeated => "error: the argument '--config <CONFIG>' cannot be used multiple times"
  | .unexpectedValue value flag =>
    s!"error: unexpected value '{value}' for '{flag}' found; no more were expected"

namespace Request

/-- What answers the question for the version: the name of the program and its number. -/
def versionText : String := "wish-server 0.1.0\n"

/-- What answers the question for help; it shows what the environment names. -/
def helpText (fromEnvironment : Option String) : String :=
  "WireGuard peer management server\n\nUsage: wish-server [OPTIONS]\n\nOptions:\n" ++
    "  -c, --config <CONFIG>  Config file; defaults to /etc/wg-wish/server.toml when present " ++
    "[env: WGWISH_CONFIG=" ++ fromEnvironment.getD "" ++ "]\n" ++
    "  -h, --help             Print help\n" ++
    "  -V, --version          Print version\n"

/-- How far the arguments are read: what is known of the one option. -/
structure Progress where
  /-- The value of the option. -/
  config : Option String := none
  /-- The option was named and not settled yet; its value may have been read. -/
  pending : Option (Option String) := none

/-- Give the option its value, which may happen once, and not with an empty value. -/
def Progress.set (p : Progress) (value : String) : Except UsageError Progress :=
  if p.config.isSome then .error .repeated
  else if value.isEmpty then .error .missingValue
  else .ok { config := some value }

/-- Settle the option that was named last, if it is still open: its value counts from now on, and it
must have one. -/
def Progress.settle (p : Progress) : Except UsageError Progress :=
  match p.pending with
  | none => .ok p
  | some none => .error .missingValue
  | some (some value) => Progress.set { p with pending := none } value

/-- What one argument leads to: going on, or an answer at once. -/
inductive Step where
  | go (p : Progress)
  | answer (r : Request)

/-- Name the option, with its value if it is attached; otherwise the next argument is its value. -/
def nameConfig (p : Progress) (value : Option String) : Except UsageError Step := do
  let p ← p.settle
  match value with
  | some v => return .go (← p.set v)
  | none => return .go { p with pending := some none }

/-- Ask a question; the option that is still open is settled before it is answered. -/
def ask (p : Progress) (r : Request) : Except UsageError Step := p.settle.map fun _ => .answer r

/-- Read an argument that begins with two hyphens: the option or a question by its whole name, with
a value behind an equals sign. -/
def readLong (p : Progress) (body : List Char) : Except UsageError Step :=
  let name := String.ofList (body.takeWhile (· ≠ '='))
  let value := match body.dropWhile (· ≠ '=') with
    | _ :: v => some (String.ofList v)
    | [] => none
  let question := fun r => match value with
    | some v => .error (.unexpectedValue v ("--" ++ name))
    | none => ask p r
  match name with
  | "config" => nameConfig p value
  | "help" => question .help
  | "version" => question .version
  | _ => .error (.unexpected ("--" ++ name))

/-- Read an argument that begins with one hyphen. What stands behind the letter of a question does
not matter. -/
def readShort (p : Progress) : List Char → Except UsageError Step
  | 'c' :: '=' :: value => nameConfig p (some (String.ofList value))
  | 'c' :: value => nameConfig p (if value.isEmpty then none else some (String.ofList value))
  | 'h' :: _ => ask p .help
  | 'V' :: _ => ask p .version
  | other => .error (.unexpected (String.ofList ('-' :: other.take 1)))

/-- Read one argument. One without hyphens is the value of an option that waits for it, and nothing
else. -/
def readArgument (p : Progress) (argument : String) : Except UsageError Step :=
  match argument.toList, p.pending with
  | '-' :: '-' :: body, _ => readLong p body
  | '-' :: c :: body, _ => readShort p (c :: body)
  | _, some none => .ok (.go { p with pending := some (some argument) })
  | _, _ => .error (.unexpected argument)

/-- Read the arguments one after the other. After two hyphens alone there are no more options, so
whatever follows is unexpected. -/
def readAll (p : Progress) : List String → Except UsageError Step
  | [] => p.settle.map .go
  | argument :: rest =>
    if argument = "--" then
      match rest with
      | [] => p.settle.map .go
      | next :: _ => .error (.unexpected next)
    else
      match readArgument p argument with
      | .ok (.go p) => readAll p rest
      | other => other

/-- Read the arguments; the environment may name the file in their place, where an empty value is
refused too. -/
def parse (arguments : List String) (fromEnvironment : Option String) :
    Except UsageError Request := do
  match ← readAll {} arguments with
  | .answer r => return r
  | .go p =>
    match p.config, fromEnvironment with
    | some config, _ => return .run (some config)
    | none, none => return .run none
    | none, some config => return .run (← p.set config).config

end Request

end WireKeeper
