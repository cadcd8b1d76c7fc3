import WireKeeper.Interface.Tools
import WireKeeper.Shell.Script

/-! # Scripted tools

A toolbox whose programs are shell scripts. Every call becomes the arguments of a program; a program
that fails, is missing or takes too long is a failure of the tool, shown with the whole command.

`ScriptedTools.toolbox` is the toolbox; it remembers with what arguments programs were started. -/

namespace WireKeeper

/-- A program that a tool starts: a script at a path. One without a script is missing, and to start
it fails. -/
structure Program where
  /-- What it is called by. -/
  command : String
  /-- Where it lies. -/
  path : String
  /-- Its script, if it exists. -/
  script : Option String
  /-- The line of its file where the script begins. -/
  firstLine : Nat := 2

/-- The programs of a toolbox, one for the interface as a whole and one for what runs, and how many
milliseconds each may take. -/
structure ScriptedTools where
  quick : Program
  wg : Program
  timeout : Nat

namespace ScriptedTools

/-- The program for a call and its arguments, in the order in which it takes them. -/
def program (t : ScriptedTools) : ToolCall → Program × List String
  | .bringUp file => (t.quick, ["up", file])
  | .bringDown file => (t.quick, ["down", file])
  | .strip file => (t.quick, ["strip", file])
  | .synchronize interface file => (t.wg, ["syncconf", interface, file])
  | .statusDump interface => (t.wg, ["show", interface, "dump"])

/-- A number of milliseconds in seconds, with as many places as it needs: `1500` is `1.5` and `2000`
is `2`. -/
def seconds (milliseconds : Nat) : String :=
  let places := (Text.decimal (milliseconds % 1000 + 1000)).drop 1
  let places := (places.reverse.dropWhile (· == '0')).reverse
  let whole := toString (milliseconds / 1000)
  if places.isEmpty then whole else whole ++ "." ++ String.ofList places

/-- What a program that has run gives: its output if it ended well and in time, and else what it has
printed to the errors, without the blanks around it. -/
def outcome (timeout : Nat) (run : Shell.Run) : Except String String :=
  if run.elapsed.all (timeout ≤ ·) then .error s!"timed out after {seconds timeout}s"
  else if run.status = some 0 then .ok (Utf8.decodeLossy run.output)
  else .error (String.ofList (Text.trim (Utf8.decodeLossyFrom 0 run.errors)))

/-- Start a program with arguments; a start that succeeds is remembered, whatever comes of the run.
An argument with a zero byte cannot be handed over, so nothing is started. -/
def start (t : ScriptedTools) (p : Program) (arguments : List String)
    (h : Host (List (List String))) : Except String String × Host (List (List String)) :=
  if arguments.any fun a => a.toList.contains '\x00' then
    (.error "nul byte found in provided data", h)
  else
    match p.script with
    | none => (.error DiskError.notFound.message, h)
    | some script =>
      let run := Shell.Script.run p.firstLine script p.path arguments h.disk
      (outcome t.timeout run, ⟨run.disk, h.tools ++ [arguments]⟩)

/-- The toolbox: each call is a run of its program, and an error shows the whole command. -/
def toolbox (t : ScriptedTools) : Toolbox (List (List String)) := fun call h =>
  let (p, arguments) := t.program call
  let (result, h) := t.start p arguments h
  (result.mapError (.toolFailed (" ".intercalate (p.command :: arguments))), h)

end ScriptedTools

end WireKeeper
