import WireKeeper.Settings.Layer
import WireKeeper.Text.Basic

/-! # Log events

What the server reports while it runs, and which of it is let through.

A `LogFilter` has directives: the start of a target and how much detail is let through for it. The
directive with the longest start counts; without any, nothing passes.

* `LogFilter.parse?` reads directives `level`, `target` and `target=level`, separated by commas;
* `LogFilter.enables` decides about an event. -/

namespace WireKeeper

/-- How much an event matters, the gravest first. -/
inductive LogLevel where
  | error
  | warn
  | info
  | debug
  | trace
  deriving DecidableEq, Repr

namespace LogLevel

/-- Levels in the order of their detail, from one on; zero is left for letting nothing pass. -/
def detail : LogLevel → Nat
  | error => 1
  | warn => 2
  | info => 3
  | debug => 4
  | trace => 5

/-- The word for a level in log lines, in capital letters. -/
def word : LogLevel → String
  | error => "ERROR"
  | warn => "WARN"
  | info => "INFO"
  | debug => "DEBUG"
  | trace => "TRACE"

end LogLevel

/-- An event; the target is the part of the program that it comes from. -/
structure LogEvent where
  level : LogLevel
  target : String
  message : String
  deriving DecidableEq, Repr

/-- The line of an event, in one of two formats. Messages have no character that is to be
escaped. -/
def LogEvent.line (format : LogFormat) (e : LogEvent) : String :=
  match format with
  | .pretty => s!"{e.level.word} {e.target}: {e.message}"
  | .json =>
    let fields := [("level", e.level.word), ("target", e.target), ("message", e.message)]
    let shown := fields.map fun (name, value) => s!"\"{name}\":\"{value}\""
    "\x7b" ++ ",".intercalate shown ++ "\x7d"

/-- Which events pass: for each target the most detail that passes, zero for none. Of two directives
for a target the first one counts. -/
structure LogFilter where
  directives : List (List Char × Nat)

namespace LogFilter

/-- The words for details, from none on, each at the place of its detail. -/
def words : List String := ["off", "error", "warn", "info", "debug", "trace"]

/-- The detail that a word, in letters of either case, or a digit means. -/
def detail? (s : List Char) : Option Nat :=
  let word := String.ofList (s.map Char.toLower)
  if words.contains word then some (words.idxOf word)
  else
    match s with
    | [c] => if '0' ≤ c ∧ c ≤ '5' then some (c.toNat - 48) else none
    | _ => none

/-- Whether a text can be a target: letters, digits, underscores, colons and hyphens, at
least one. -/
def isTarget (s : List Char) : Bool :=
  !s.isEmpty && s.all fun c => c.isAlphanum || c == '_' || c == ':' || c == '-'

/-- Read a directive. A target without a level lets everything through, and a level without a target
is for all of them. -/
def directive? (s : List Char) : Option (List Char × Nat) :=
  match detail? s with
  | some d => some ([], d)
  | none =>
    let (target, level) := (Text.cutFirst '=' s).getD (s, [])
    if isTarget target then
      (if level.isEmpty then some 5 else detail? level).map fun d => (target, d)
    else none

/-- Read directives; a later one replaces an earlier one of the same target. Without any, errors
pass, and one that cannot be read spoils all. -/
def parse? (s : String) : Option LogFilter := do
  let parts := ((s.toList.splitOn ',').map Text.trim).filter (!·.isEmpty)
  if parts.isEmpty then some ⟨[([], 1)]⟩ else some ⟨(← parts.mapM directive?).reverse⟩

/-- The longer of two targets, the first of two equal ones, each with its detail. -/
def longer (a b : List Char × Nat) : List Char × Nat := if a.1.length < b.1.length then b else a

/-- The detail that passes for a target: that of the longest start of it that there is a directive
for, and none without one. -/
def detail (f : LogFilter) (target : String) : Nat :=
  let fitting := f.directives.filter fun d => Text.startsWith d.1 target.toList
  match fitting with
  | [] => 0
  | d :: ds => (ds.foldl longer d).2

/-- Whether an event passes: it needs no more detail than what passes for its target. -/
def enables (f : LogFilter) (e : LogEvent) : Bool := e.level.detail ≤ f.detail e.target

end LogFilter

end WireKeeper
