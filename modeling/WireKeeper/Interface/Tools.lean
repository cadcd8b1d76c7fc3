import WireKeeper.Host.Disk
import WireKeeper.Interface.Error

/-! # Tools

The interface is worked by outside tools. A `ToolCall` is one use of them, a `Toolbox` says what a
call gives and what it does to the disk and to the state of the tools.

`Rehearsal.toolbox` is a toolbox that touches no interface: it records its calls, answers what it
was told to, and fails on demand. -/

namespace WireKeeper

/-- The kinds of calls, by which failures on demand are told apart. -/
inductive ToolKind where
  | bringUp
  | bringDown
  | strip
  | synchronize
  | statusDump
  deriving DecidableEq, Repr

/-- A use of the tools, with what it is given: the path of a file, the name of an interface, or
both. -/
inductive ToolCall where
  /-- Bring the interface of a file up. -/
  | bringUp (file : String)
  /-- Bring the interface of a file down. -/
  | bringDown (file : String)
  /-- Print a file without the keys that only bringing up understands. -/
  | strip (file : String)
  /-- Give a running interface the configuration in a file. -/
  | synchronize (interface file : String)
  /-- Print the state of an interface. -/
  | statusDump (interface : String)
  deriving DecidableEq, Repr

namespace ToolCall

/-- The kind of a call, which is all of it but what it is given. -/
def kind : ToolCall → ToolKind
  | bringUp _ => .bringUp
  | bringDown _ => .bringDown
  | strip _ => .strip
  | synchronize .. => .synchronize
  | statusDump _ => .statusDump

/-- How a call is shown in messages, with paths and names in quotes. -/
def shown : ToolCall → String
  | bringUp file => s!"BringUp({Text.quotedPath file})"
  | bringDown file => s!"BringDown({Text.quotedPath file})"
  | strip file => s!"Strip({Text.quotedPath file})"
  | synchronize interface file => s!"Synchronize({Text.quoted interface}, {Text.quotedPath file})"
  | statusDump interface => s!"StatusDump({Text.quoted interface})"

end ToolCall

/-- A machine: its disk and whatever its tools remember from one call to the next. -/
structure Host (σ : Type) where
  disk : Disk
  tools : σ

/-- What calls give and do. Only stripping and dumping give a text that matters. -/
abbrev Toolbox (σ : Type) := ToolCall → Host σ → Except InterfaceError String × Host σ

/-- What a synchronization found in its file, which is removed afterwards. -/
structure SyncedFile where
  path : String
  contents : String
  mode : Nat
  deriving DecidableEq, Repr

/-- The state of tools that touch no interface: what they are to answer, which kinds of calls are to
fail, and what they have seen so far. -/
structure Rehearsal where
  /-- The calls so far. -/
  calls : List ToolCall := []
  /-- The kinds of calls that fail. -/
  failing : List ToolKind := []
  /-- What stripping gives. -/
  stripped : String := ""
  /-- What dumping gives. -/
  dump : String := ""
  /-- What the last synchronization found. -/
  synced : Option SyncedFile := none

namespace Rehearsal

/-- What is said of every failure on demand, be it of a tool or of an armed step. -/
def injected : String := "injected failure"

/-- Let a kind of calls fail, or no longer. To say it twice is to say it once. -/
def setFailing (r : Rehearsal) (kind : ToolKind) (on : Bool) : Rehearsal :=
  let others := r.failing.filter (· ≠ kind)
  { r with failing := if on then kind :: others else others }

/-- Record a call and give an answer, or fail on demand; a call that fails is recorded too. -/
def record (call : ToolCall) (answer : String) (r : Rehearsal) :
    Except InterfaceError String × Rehearsal :=
  let r := { r with calls := r.calls ++ [call] }
  if r.failing.contains call.kind then (.error (.toolFailed call.shown injected), r)
  else (.ok answer, r)

/-- Look at the file of a synchronization. A file that is missing or no text makes the call fail
before it is recorded. -/
def look (file : String) (h : Host Rehearsal) : Except InterfaceError (Host Rehearsal) :=
  let path := h.disk.resolve file
  match h.disk.contents path with
  | .error e => .error (.file e.message)
  | .ok bytes =>
    match Utf8.toString? bytes with
    | none => .error (.file "stream did not contain valid UTF-8")
    | some contents =>
      let synced := ⟨file, contents, (h.disk.mode? path).getD 0⟩
      .ok { h with tools := { h.tools with synced := some synced } }

/-- The toolbox: it looks at the file of a synchronization, records the call and answers what it was
told to. -/
def toolbox : Toolbox Rehearsal := fun call h =>
  match call with
  | .synchronize _ file =>
    match look file h with
    | .error e => (.error e, h)
    | .ok h =>
      let (result, tools) := h.tools.record call ""
      (result, { h with tools := tools })
  | _ =>
    let answer := match call with
      | .strip _ => h.tools.stripped
      | .statusDump _ => h.tools.dump
      | _ => ""
    let (result, tools) := h.tools.record call answer
    (result, { h with tools := tools })

end Rehearsal

end WireKeeper
