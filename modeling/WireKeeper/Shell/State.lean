import WireKeeper.Host.Disk
import WireKeeper.Shell.Command
import WireKeeper.Shell.Filter

/-! # The state of a running script

What a script knows and has done: its parameters, what it has printed on its two streams, how much
time has passed, and whether it is leaving.

* `State.write` prints on a stream, wherever the stream goes;
* `State.value?` gives the value of a parameter;
* `State.redirect` lets a stream go elsewhere;
* `State.perform?` runs one command that is no part of the syntax. -/

namespace WireKeeper.Shell

/-- Where a stream goes: to where the script's own streams go, to nowhere, or to a file. -/
inductive Sink where
  | output
  | errors
  | nowhere
  | file (path : String)
  deriving DecidableEq, Repr

/-- Why a script, or a part of it, goes no further; until somebody takes it, no command does
anything. -/
inductive Leaving where
  | exit
  /-- Ended by a signal. -/
  | killed
  /-- Longer than anybody waits. -/
  | endless
  /-- Back from a function. -/
  | returned
  /-- Out of a loop and so many loops around it. -/
  | breakLoop (more : Nat)
  /-- To the next round of the loop that lies so many loops further out. -/
  | nextRound (more : Nat)
  deriving DecidableEq, Repr

/-- The state of a script: what it knows, what it has done and how it goes on. -/
structure State where
  /-- What the script was called by. -/
  title : String
  /-- The line of the command that runs. -/
  line : Nat := 1
  arguments : List (List Char)
  bindings : List (List Char × List Char) := []
  functions : List (List Char × Command) := []
  /-- The status of the last command; zero is success. -/
  status : Nat := 0
  input : Bytes := []
  /-- What was written on the first stream, the latest part first. -/
  output : List Bytes := []
  /-- What was written on the second stream, the latest part first. -/
  errors : List Bytes := []
  outputSink : Sink := .output
  errorSink : Sink := .errors
  /-- How many milliseconds have passed. -/
  elapsed : Nat := 0
  disk : Disk := {}
  /-- A failure ends the script. -/
  exitOnFailure : Bool := false
  /-- A parameter must have a value. -/
  strict : Bool := false
  /-- A failure is only looked at. -/
  tested : Bool := false
  /-- How many loops are running. -/
  loops : Nat := 0
  /-- What runs at the end. -/
  atEnd : List Char := []
  leaving : Option Leaving := none

namespace State

/-! ## Printing and failing -/

/-- Write bytes into a sink; those for a file are put behind what is in it. -/
def writeTo (s : State) (sink : Sink) (bytes : Bytes) : State :=
  match sink with
  | .output => { s with output := bytes :: s.output }
  | .errors => { s with errors := bytes :: s.errors }
  | .nowhere => s
  | .file path =>
    let p := s.disk.resolve path
    let old := (s.disk.contents p).toOption.getD []
    { s with disk := (s.disk.writeFile p (old ++ bytes) 0o644).toOption.getD s.disk }

/-- Print on the first stream, wherever it goes. -/
def write (s : State) (bytes : Bytes) : State := s.writeTo s.outputSink bytes

/-- Print a line on the second stream, wherever it goes. -/
def complain (s : State) (text : String) : State :=
  s.writeTo s.errorSink (Utf8.ofString (text ++ "\n"))

/-- Print a line about the command that runs, with the title and the line of the script. -/
def report (s : State) (text : String) : State := s.complain s!"{s.title}: {s.line}: {text}"

/-- Set the status of the last command; nothing else happens. -/
def withStatus (s : State) (status : Nat) : State := { s with status := status }

/-- Fail with a message about the command that runs; the script goes on. -/
def fail (s : State) (status : Nat) (text : String) : State := (s.report text).withStatus status

/-- Leave the script with a status, of which one byte is kept. -/
def exit (s : State) (status : Nat) : State :=
  { s with status := status % 256, leaving := some .exit }

/-- Leave the script with a message about the command that runs. -/
def abort (s : State) (text : String) : State := (s.report text).exit 2

/-- Stop for running too long, which is no failure of the script. -/
def stop (s : State) : State := { s with leaving := some .endless }

/-- Leave after a failure that nobody looks at, if failures end the script. -/
def checked (s : State) : State :=
  if s.exitOnFailure && !s.tested && s.status ≠ 0 && s.leaving.isNone then
    { s with leaving := some .exit }
  else s

/-! ## Parameters -/

/-- Set a variable; the value it had before is gone. -/
def assign (s : State) (name value : List Char) : State :=
  { s with bindings := (name, value) :: s.bindings.filter (·.1 ≠ name) }

/-- Give variables the values they had before, or none if they had none. -/
def unassign (s before : State) (names : List (List Char)) : State :=
  { s with bindings := s.bindings.filter (!names.contains ·.1) ++
      before.bindings.filter (names.contains ·.1) }

/-- The value of a parameter, if it has one: a special one, an argument by its number, or a
variable. -/
def value? (s : State) (name : List Char) : Option (List Char) :=
  match name with
  | ['#'] => some (Text.decimal s.arguments.length)
  | ['?'] => some (Text.decimal s.status)
  | ['$'] => some (Text.decimal 1)
  | ['!'] => some []
  | ['-'] => some []
  | ['@'] => some (Text.joinWith [' '] s.arguments)
  | ['*'] => some (Text.joinWith [' '] s.arguments)
  | ['0'] => some s.title.toList
  | _ =>
    match Text.digits? 10 name with
    | some n => s.arguments[n - 1]?
    | none => s.bindings.lookup name

/-- The value of a parameter, empty if it has none. -/
def value (s : State) (name : List Char) : List Char := (s.value? name).getD []

/-- Set what is given as `name=value`; anything else is passed over. -/
def setAll (s : State) (settings : List (List Char)) : State :=
  settings.foldl (fun s setting =>
    match Text.cutFirst '=' setting with
    | some (name, value) => s.assign name value
    | none => s) s

/-- Go on after a command that ran on its own: what it printed, its time and its files stay, its
variables and directory do not. -/
def adopt (s own : State) : State :=
  let leaving := own.leaving.filter fun l => l == .killed || l == .endless
  { s with status := own.status, input := own.input, output := own.output, errors := own.errors,
           elapsed := own.elapsed, disk := { own.disk with current := s.disk.current },
           leaving := leaving }

/-! ## Redirections -/

/-- Give the streams back after redirections; an input that was taken from elsewhere is given back
too. -/
def restore (s before : State) (redirects : List Redirect) : State :=
  let took := redirects.any fun r => r.sign.startsWith "<"
  { s with outputSink := before.outputSink, errorSink := before.errorSink,
           input := if took then before.input else s.input }

/-- Let a stream go elsewhere; any number but two means the first one. -/
def setSink (s : State) (stream : Nat) (sink : Sink) : State :=
  if stream = 2 then { s with errorSink := sink } else { s with outputSink := sink }

/-- The sink that a path names; the names of devices are no files. -/
def sinkAt (path : String) : Sink :=
  if path = "/dev/null" then .nowhere
  else if path = "/dev/stdout" then .output
  else if path = "/dev/stderr" then .errors
  else .file path

/-- Make the file of a sink, or empty it unless it is to be kept. -/
def makeFile (s : State) (path : String) (keep : Bool) : Except String State :=
  match sinkAt path with
  | .file path =>
    let p := s.disk.resolve path
    let old := if keep then (s.disk.contents p).toOption.getD [] else []
    match s.disk.writeFile p old 0o644 with
    | .ok disk => .ok { s with disk := disk }
    | .error .isADirectory => .error s!"cannot create {path}: Is a directory"
    | .error _ => .error s!"cannot create {path}: Directory nonexistent"
  | _ => .ok s

/-- Redirect a stream, or say why not; the sign tells which way and how. -/
def redirect (s : State) (stream : Nat) (sign target : String) : Except String State :=
  match sign with
  | ">&" =>
    match target with
    | "1" => .ok (s.setSink stream s.outputSink)
    | "2" => .ok (s.setSink stream s.errorSink)
    | "-" => .ok (s.setSink stream .nowhere)
    | _ => .error s!"{target}: Bad file descriptor"
  | ">>" => (s.makeFile target true).map (·.setSink stream (sinkAt target))
  | "<<" => .ok { s with input := Utf8.ofString target }
  | "<" =>
    if target = "/dev/null" then .ok { s with input := [] }
    else
      match s.disk.contents (s.disk.resolve target) with
      | .ok contents => .ok { s with input := contents }
      | .error _ => .error s!"cannot open {target}: No such file"
  | "<&" => .ok s
  | _ => (s.makeFile target false).map (·.setSink stream (sinkAt target))

/-! ## Statements -/

/-- Whether a statement about one text or file is true; a device counts as a file that is there. -/
def testOne (s : State) (op x : List Char) : Except String Bool :=
  let path := String.ofList x
  let isNull := path = "/dev/null"
  let node := (s.disk.find (s.disk.resolve path)).toOption
  let contents := (s.disk.contents (s.disk.resolve path)).toOption
  match String.ofList op with
  | "-n" => .ok !x.isEmpty
  | "-z" => .ok x.isEmpty
  | "-e" => .ok (isNull || node.isSome)
  | "-r" => .ok (isNull || node.isSome)
  | "-w" => .ok (isNull || node.isSome)
  | "-x" => .ok (node == some .directory)
  | "-d" => .ok (node == some .directory)
  | "-f" => .ok (node.isSome && node != some .directory)
  | "-s" => .ok (contents.any (!·.isEmpty))
  | "-t" => .ok false
  | "!" => .ok x.isEmpty
  | other =>
    if ["=", "!=", "-eq", "-ne", "-lt", "-le", "-gt", "-ge"].contains path then
      .error s!"{path}: argument expected"
    else .error s!"{other}: unexpected operator"

/-- Whether a statement about two texts is true; some compare them as numbers, which they then have
to be. -/
def testTwo (a op b : List Char) : Except String Bool :=
  let numbers := fun (f : Int → Int → Bool) => do
    let number := fun (x : List Char) =>
      match Arithmetic.decimal? (Text.trim x) with
      | some n => .ok n
      | none => .error ("Illegal number: " ++ String.ofList x)
    let m ← number a
    let n ← number b
    return f m n
  match String.ofList op with
  | "=" => .ok (a == b)
  | "!=" => .ok (a != b)
  | "<" => .ok (decide (a < b))
  | ">" => .ok (decide (b < a))
  | "-eq" => numbers fun m n => m == n
  | "-ne" => numbers fun m n => m != n
  | "-lt" => numbers fun m n => m < n
  | "-le" => numbers fun m n => m ≤ n
  | "-gt" => numbers fun m n => m > n
  | "-ge" => numbers fun m n => m ≥ n
  | _ => .error (String.ofList a ++ ": unexpected operator")

/-- Whether a statement without connectives is true, by the number of its arguments. -/
def testPlain (s : State) : List (List Char) → Except String Bool
  | [] => .ok false
  | [x] => .ok !x.isEmpty
  | ['!'] :: x :: rest => (testPlain s (x :: rest)).map (!·)
  | [op, x] => s.testOne op x
  | [a, op, b] => testTwo a op b
  | a :: _ => .error (String.ofList a ++ ": unexpected operator")

/-- Whether a statement is true; "or" joins parts joined by "and", and few arguments are never
split. -/
def test (s : State) (arguments : List (List Char)) : Except String Bool :=
  if arguments.length ≤ 3 then s.testPlain arguments
  else
    (arguments.splitOn ['-', 'o']).foldlM (fun found part => do
      let here ← (part.splitOn ['-', 'a']).foldlM (fun so part => do
        return so && (← s.testPlain part)) true
      return found || here) false

/-- Run a statement as a command; one that cannot be read has a status of its own. -/
def judge (s : State) (name : String) (arguments : List (List Char)) : State :=
  match s.test arguments with
  | .ok true => s.withStatus 0
  | .ok false => s.withStatus 1
  | .error text => s.fail 2 s!"{name}: {text}"

/-! ## Commands -/

/-- Milliseconds from a text in seconds, with at most three places that count. -/
def milliseconds? (s : List Char) : Option Nat := do
  let (whole, fraction) := (Text.cutFirst '.' s).getD (s, ['0'])
  let seconds ← if whole.isEmpty then some 0 else Text.digits? 10 whole
  let _ ← if fraction.isEmpty then some 0 else Text.digits? 10 fraction
  let digits := (fraction ++ ['0', '0', '0']).take 3
  return seconds * 1000 + (← Text.digits? 10 digits)

/-- What a program outside of the shell says about a file that it cannot read. -/
def unreadable (e : DiskError) : String := (e.message.splitOn " (os error").head?.getD ""

/-- Print the input, or files one after the other; a file that cannot be read does not stop it. -/
def cat (s : State) : List (List Char) → State
  | [] => s
  | path :: rest =>
    if path = ['-'] then cat { s.write s.input with input := [] } rest
    else
      let path := String.ofList path
      match s.disk.contents (s.disk.resolve path) with
      | .ok bytes => cat (s.write bytes) rest
      | .error e =>
        if path = "/dev/null" then cat s rest
        else (cat (s.complain s!"cat: {path}: {unreadable e}") rest).withStatus 1

/-- Run a filter on its file, or on the input, which is then used up. -/
def filter (s : State) (name : String) (f : Filter) : State :=
  match f.file with
  | none => { (s.withStatus 0).write (f.apply s.input) with input := [] }
  | some path =>
    let path := String.ofList path
    match s.disk.contents (s.disk.resolve path) with
    | .ok bytes => (s.withStatus 0).write (f.apply bytes)
    | .error e =>
      if path = "/dev/null" then (s.withStatus 0).write (f.apply [])
      else if path = "/dev/zero" then
        (s.withStatus 0).write (f.apply (List.replicate 1000000 0))
      else (s.complain s!"{name}: cannot open '{path}' for reading: {unreadable e}").withStatus 1

/-- Give the fields of a line to variables; the last one takes what is left, without the blanks
around it. -/
def assignFields (s : State) (text : List Char) : List (List Char) → State
  | [] => s
  | [name] => s.assign name (Text.trim text)
  | name :: names =>
    let text := Text.trimStart text
    let word := text.takeWhile (!Text.isBlank ·)
    assignFields (s.assign name word) (text.drop word.length) names

/-- Drop the backslashes that protect other characters; a protected backslash stays. -/
def unprotect : List Char → List Char
  | '\\' :: c :: rest => c :: unprotect rest
  | c :: rest => c :: unprotect rest
  | [] => []

/-- Read a line of the input into variables; a last line without its end is read too, but counts as
a failure. -/
def readLine (s : State) (arguments : List (List Char)) : State :=
  let raw := arguments.contains ['-', 'r']
  let names := arguments.filter (·.head? ≠ some '-')
  if names.isEmpty then s.fail 2 "read: arg count"
  else
    let line := s.input.takeWhile (· ≠ 10)
    let whole := line.length < s.input.length
    let text := Utf8.decodeLossyFrom 0 line
    { s.assignFields (if raw then text else unprotect text) names with
      input := s.input.drop (line.length + 1), status := if whole then 0 else 1 }

/-- Set options and arguments: letters behind a minus sign are switched on, behind a plus sign off,
and the rest are arguments. -/
def set (s : State) : List (List Char) → State
  | [] => s
  | ['-', '-'] :: rest => { s with arguments := rest }
  | (sign :: letters) :: rest =>
    if (sign = '-' || sign = '+') && !letters.isEmpty then
      let on := sign = '-'
      set { s with exitOnFailure := if letters.contains 'e' then on else s.exitOnFailure,
                   strict := if letters.contains 'u' then on else s.strict } rest
    else { s with arguments := (sign :: letters) :: rest }
  | rest => { s with arguments := rest }

/-- Take a number from the arguments of a command that leaves something; a text that is none ends
the script. -/
def withNumber (s : State) (name : String) (arguments : List (List Char)) (otherwise : Nat)
    (f : Nat → State) : State :=
  match arguments.head? with
  | none => f otherwise
  | some text =>
    match (Text.digits? 10 (Text.trim text)).filter (· < 0x80000000) with
    | some n => f n
    | none => s.abort s!"{name}: Illegal number: {String.ofList text}"

/-- The numbers from one to another, a line each; without a step, or downwards, there are none. -/
def sequence (first step last : Nat) : String :=
  let count := if step = 0 || last < first then 0 else (last - first) / step + 1
  String.join ((List.range count).map fun i => s!"{first + i * step}\n")

/-- Run a command by name; `none` if there is no such command, neither of the shell nor a filter. -/
def perform? (s : State) (name : String) (arguments : List (List Char)) : Option State :=
  let ok := s.withStatus 0
  let number := fun x => (Text.digits? 10 x).getD 0
  let leave := fun (way : Nat → Leaving) => s.withNumber name arguments 1 fun n =>
    if s.loops = 0 then ok else { ok with leaving := some (way (min n s.loops - 1)) }
  let sequence := fun first step last => some (ok.write (Utf8.ofString (sequence first step last)))
  match name, arguments with
  | ":", _ => some ok
  | "true", _ => some ok
  | "false", _ => some (s.withStatus 1)
  | "echo", _ => some (ok.write (Format.echo arguments))
  | "printf", format :: rest =>
    match format with
    | ['-', '-'] => perform? s name rest
    | '-' :: c :: _ => some (s.fail 2 s!"printf: Illegal option -{String.ofList [c]}")
    | _ =>
      let p := Format.printf format rest
      let s := p.complaints.foldl (fun s text => s.report s!"printf: {text}") s
      some ((s.write p.bytes).withStatus
        (if p.failed then 2 else if p.complaints.isEmpty then 0 else 1))
  | "printf", [] => some (s.fail 2 "printf: usage: printf format [arg ...]")
  | "cat", _ => some (cat ok (if arguments.isEmpty then [['-']] else arguments))
  | "exit", _ => some (s.withNumber name arguments s.status s.exit)
  | "return", _ => some (s.withNumber name arguments s.status fun n =>
      { s with status := n % 256, leaving := some .returned })
  | "sleep", [] =>
    some ((s.complain "sleep: missing operand\nTry 'sleep --help' for more information.").withStatus
      1)
  | "sleep", text :: _ =>
    match milliseconds? text with
    | some n => some { ok with elapsed := s.elapsed + n }
    | none => some ((s.complain (s!"sleep: invalid time interval '{String.ofList text}'\n" ++
        "Try 'sleep --help' for more information.")).withStatus 1)
  | "test", _ => some (s.judge name arguments)
  | "[", _ =>
    if arguments.getLast? = some [']'] then some (s.judge name arguments.dropLast)
    else some (s.fail 2 "[: missing ]")
  | "kill", ['-', '0'] :: _ => some ok
  | "kill", _ => some { s with leaving := some .killed }
  | "break", _ => some (leave .breakLoop)
  | "continue", _ => some (leave .nextRound)
  | "shift", _ => some (s.withNumber name arguments 1 fun n =>
      if n ≤ s.arguments.length then { ok with arguments := s.arguments.drop n }
      else s.abort "shift: can't shift that many")
  | "set", _ => some (ok.set arguments)
  | "export", _ => some (ok.setAll arguments)
  | "readonly", _ => some (ok.setAll arguments)
  | "local", _ => some (ok.setAll arguments)
  | "unset", _ => some { ok with bindings := s.bindings.filter (!arguments.contains ·.1) }
  | "read", _ => some (s.readLine arguments)
  | "seq", [last] => sequence 1 1 (number last)
  | "seq", [first, last] => sequence (number first) 1 (number last)
  | "seq", [first, step, last] => sequence (number first) (number step) (number last)
  | "cd", path :: _ =>
    let p := s.disk.resolve (String.ofList path)
    if s.disk.isDirectory p then some { ok with disk := { s.disk with current := p } }
    else some (s.fail 2 s!"cd: can't cd to {String.ofList path}")
  | "trap", action :: signals =>
    if signals.contains ['0'] || signals.contains "EXIT".toList then
      some { ok with atEnd := if action = ['-'] then [] else action }
    else some ok
  | "trap", _ => some ok
  | "wait", _ => some ok
  | "umask", _ => some ok
  | _, _ => (Filter.ofCommand? name arguments).map (s.filter name)
termination_by arguments.length

end State

end WireKeeper.Shell
