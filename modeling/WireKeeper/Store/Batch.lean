import WireKeeper.Store.Queue
import WireKeeper.Store.Session

/-! # Batches

A group of calls shares one update. Each call runs after a **mark**: a call that fails is undone
back to its mark and the others stay, and the whole is committed once at the end. A call that breaks
off takes the whole group with it.

To its group a call is a **program**: whatever it does with the database that it sees.

* `Call`, `Call.perform`: calls as data, and their programs;
* `Batch.runGroup`: a group of programs;
* `Batch.run`: calls in their groups. -/

namespace WireKeeper

/-- One action of a call, as far as calls are data. -/
inductive Action where
  | operation (op : Operation)
  /-- Fail for a reason of the caller's own. -/
  | fail (reason : String)
  /-- Break off. -/
  | breakOff

/-- An action, and whether its failure is passed over; one that breaks off is never passed over. -/
structure Task where
  action : Action
  ignored : Bool

/-- A call: it ends with its first failure that is not passed over, or when all its tasks
are done. -/
abbrev Call := List Task

/-- What a call does with the database that it sees: its result and what it leaves, or `none` if it
breaks off. -/
abbrev BatchProgram := Database → Option (Except StoreError Unit × Database)

/-- An open update with the marks to return to, the last one first. A mark is the database as it was
when the mark was set. -/
structure MarkedWork where
  work : Database
  marks : List Database := []

namespace MarkedWork

/-- Set a mark: undoing leads back to the database as it is now. -/
def mark (m : MarkedWork) : MarkedWork := ⟨m.work, m.work :: m.marks⟩

/-- Undo everything since the last mark, which stays, so that it can be released like any other. -/
def undo (m : MarkedWork) : MarkedWork :=
  match m.marks with
  | d :: ds => ⟨d, d :: ds⟩
  | [] => m

/-- Remove the last mark and keep what was done since it was set. -/
def release (m : MarkedWork) : MarkedWork := ⟨m.work, m.marks.tail⟩

end MarkedWork

/-- Do an action; `none` if it breaks off, as an operation does when the reading of a record breaks
off. -/
def Action.perform (a : Action) : BatchProgram := fun db =>
  match a with
  | .operation op =>
    match op.perform.run .update db with
    | (.error .brokenOff, _) => none
    | (result, db) => some (result.map fun _ => (), db)
  | .fail reason => some (.error (.internal reason), db)
  | .breakOff => none

/-- Do a call, task by task; `none` if it breaks off, and then none of its changes matters. -/
def Call.perform : Call → BatchProgram
  | [], db => some (.ok (), db)
  | task :: tasks, db =>
    match task.action.perform db with
    | none => none
    | some (.ok _, db) => Call.perform tasks db
    | some (.error e, db) => if task.ignored then Call.perform tasks db else some (.error e, db)

namespace Batch

/-- Run one program between a mark and its release: the changes of one that fails are undone, and
only those. -/
def runMarked (program : BatchProgram) (m : MarkedWork) :
    Option (Except StoreError Unit × MarkedWork) :=
  let m := m.mark
  match program m.work with
  | none => none
  | some (.ok _, db) => some (.ok (), { m with work := db }.release)
  | some (.error e, db) => some (.error e, { m with work := db }.undo.release)

/-- Run the programs of a group one after the other; each sees what the ones before it have left. -/
def runMarkedAll :
    List BatchProgram → MarkedWork → Option (List (Except StoreError Unit) × MarkedWork)
  | [], m => some ([], m)
  | program :: programs, m =>
    match runMarked program m with
    | none => none
    | some (result, m) =>
      match runMarkedAll programs m with
      | none => none
      | some (results, m) => some (result :: results, m)

/-- Why no call of a group has a result: one of them broke off, and all are given up. -/
def dropped : StoreError := .internal "batch dropped before completion"

/-- Why a group could not begin: there was no transaction for it. -/
def notBegun : StoreError :=
  .internal "batch begin failed: attempted to acquire a connection on a closed pool"

/-- Run a group on a store whose section is free: one transaction for all, committed at the end, or
given up as a whole if a program breaks off. -/
def runGroup (programs : List BatchProgram) (s : Store) : List (Except StoreError Unit) × Store :=
  match s.begin .update with
  | .begun t s =>
    match runMarkedAll programs ⟨t.work, []⟩ with
    | some (results, m) =>
      let (kept, s) := { t with work := m.work }.commit s
      (results, kept.release s)
    | none => (programs.map fun _ => .error dropped, t.rollback s)
  | _ => (programs.map fun _ => .error notBegun, s)

/-- Run groups one after the other, each in a transaction of its own; the results keep the order of
the calls. -/
def runGroups : List (List BatchProgram) → Store → List (Except StoreError Unit) × Store
  | [], s => ([], s)
  | g :: gs, s =>
    let (results, s) := runGroup g s
    let (more, s) := runGroups gs s
    (results ++ more, s)

/-- Run calls that are submitted at once, in groups that are full but for the last. -/
def run (calls : List Call) (s : Store) : List (Except StoreError Unit) × Store :=
  runGroups (BatchQueue.groups (calls.map Call.perform)) s

end Batch

end WireKeeper
