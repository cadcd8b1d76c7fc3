import WireKeeper.Bytes.Utf8
import WireKeeper.Store.Database
import WireKeeper.Text.Basic

/-! # The disk

Files and directories by path. A **node** is a file with its contents and its mode, a directory, or
the file of a database. Paths are read from the root or from the current directory; `.` and empty
parts do not count, and `..` goes up.

* `node?`, `contents`: looking;
* `createDirectories`, `writeFile`, `rename`, `remove`: changing. A rename replaces a whole file. -/

namespace WireKeeper

/-- The parts of a path from the root, none of them empty, `.` or `..`; the root itself is `[]`. -/
abbrev Path := List String

/-- What is at a path. A file has its contents and its mode, and the directories have no list of
what is in them, for the paths say it. -/
inductive Node where
  | file (contents : Bytes) (mode : Nat)
  | directory
  /-- The file of a database; while it is open, its two working files lie beside it. -/
  | database (db : Database) (isOpen : Bool)
  deriving DecidableEq

/-- Why the disk refuses, by the kinds of errors of the system that can occur here. -/
inductive DiskError where
  | notFound
  | exists
  | notADirectory
  | isADirectory
  | nameTooLong
  deriving DecidableEq, Repr

/-- The wording of an error, with the number that the system has for it. -/
def DiskError.message : DiskError → String
  | .notFound => "No such file or directory (os error 2)"
  | .exists => "File exists (os error 17)"
  | .notADirectory => "Not a directory (os error 20)"
  | .isADirectory => "Is a directory (os error 21)"
  | .nameTooLong => "File name too long (os error 36)"

/-- All files and directories but the root, each by its path from there. A path occurs once, for
`put` replaces what is there. -/
structure Disk where
  nodes : List (Path × Node) := []
  /-- The current directory. -/
  current : Path := []

namespace Disk

/-- One part of a path after others, the last one first. Above the root there is nothing, so `..`
stays there. -/
def stepInto (reversed : Path) (part : String) : Path :=
  if part = "" || part = "." then reversed
  else if part = ".." then reversed.tail
  else part :: reversed

/-- The path that a text means: from the root if it begins with a slash, and else from the current
directory. -/
def resolve (d : Disk) (path : String) : Path :=
  let parts := (path.toList.splitOn '/').map String.ofList
  let base := if path.toList.head? = some '/' then [] else d.current
  (parts.foldl stepInto base.reverse).reverse

/-- Drop slashes at the end, as many as there are; a path of slashes only becomes empty. -/
def dropSlashes (s : List Char) : List Char := (s.reverse.dropWhile (· == '/')).reverse

/-- The directory part of a path as text, empty for a single name. Slashes at the end of the path do
not count. -/
def parentText (path : String) : String :=
  match Text.cutLast '/' (dropSlashes path.toList) with
  | some (parent, _) =>
    if (dropSlashes parent).isEmpty then "/" else String.ofList (dropSlashes parent)
  | none => ""

/-- The node at a path. The root is a directory on every disk. -/
def node? (d : Disk) (p : Path) : Option Node :=
  match p with
  | [] => some .directory
  | _ => d.nodes.lookup p

/-- Whether there is a directory at a path: neither a file nor nothing at all. -/
def isDirectory (d : Disk) (p : Path) : Bool := d.node? p = some .directory

/-- Check that the directory of a path is there, and every one above it. No name may have more than
255 bytes, and the first part of the path that is no directory decides the error. -/
def checkParent (d : Disk) (p : Path) : Except DiskError Unit :=
  if p.any (255 < ·.utf8ByteSize) then .error .nameTooLong
  else
    -- every proper start of the path, the root first
    match (List.range p.length).find? fun n => !d.isDirectory (p.take n) with
    | none => .ok ()
    | some n => if (d.node? (p.take n)).isSome then .error .notADirectory else .error .notFound

/-- The node at a path, or why there is none; what is above it is looked at first. -/
def find (d : Disk) (p : Path) : Except DiskError Node := do
  d.checkParent p
  match d.node? p with
  | some n => pure n
  | none => throw .notFound

/-- Put a node at a path, where it replaces whatever was there; nothing is checked. -/
def put (d : Disk) (p : Path) (n : Node) : Disk :=
  { d with nodes := (p, n) :: d.nodes.filter (·.1 ≠ p) }

/-- Remove the node at a path, if there is one; nodes below it stay, so it should be a file. -/
def remove (d : Disk) (p : Path) : Disk := { d with nodes := d.nodes.filter (·.1 ≠ p) }

/-- Make the directory of the first parts of a path, so many and one more, unless it is there. A
node that is no directory is in the way, and the error depends on whether it is at the end of the
path. -/
def makeDirectory (p : Path) (d : Disk) (n : Nat) : Except DiskError Disk :=
  let q := p.take (n + 1)
  match d.node? q with
  | none =>
    if q.any (255 < ·.utf8ByteSize) then .error .nameTooLong else .ok (d.put q .directory)
  | some .directory => .ok d
  -- only at the last part is it the directory itself that is asked for
  | some _ => if n + 1 = p.length then .error .exists else .error .notADirectory

/-- Make a directory and those above it that are missing, from the root on. When this fails, no
change is kept. -/
def createDirectories (d : Disk) (p : Path) : Except DiskError Disk :=
  (List.range p.length).foldlM (makeDirectory p) d

/-- The contents of a file. A database is read as one byte that is no text, for nothing else is
asked of it. -/
def contents (d : Disk) (p : Path) : Except DiskError Bytes := do
  match ← d.find p with
  | .file contents _ => pure contents
  | .directory => throw .isADirectory
  | .database .. => pure [0xFF]

/-- The mode of a file at a path, unless it is another node. -/
def mode? (d : Disk) (p : Path) : Option Nat :=
  match d.node? p with
  | some (.file _ mode) => some mode
  | _ => none

/-- Write a file; a file that is there keeps its mode, and a new one gets `mode`. -/
def writeFile (d : Disk) (p : Path) (contents : Bytes) (mode : Nat) : Except DiskError Disk := do
  d.checkParent p
  if d.isDirectory p then throw .isADirectory
  pure (d.put p (.file contents ((d.mode? p).getD mode)))

/-- Move a file over another path, where it replaces the old file at once and keeps its own mode. -/
def rename (d : Disk) (source target : Path) : Except DiskError Disk := do
  let n ← d.find source
  d.checkParent target
  if d.isDirectory target then throw .isADirectory
  pure ((d.remove source).put target n)

/-- The names in a directory, sorted. An open database has two more files beside its own. -/
def names (d : Disk) (p : Path) : List String :=
  let inside := d.nodes.filter fun e => e.1.dropLast = p && !e.1.isEmpty
  let all := inside.flatMap fun e =>
    let name := e.1.getLast?.getD ""
    match e.2 with
    | .database _ true => [name, name ++ "-shm", name ++ "-wal"]
    | _ => [name]
  all.mergeSort fun a b => decide (a ≤ b)

end Disk

end WireKeeper
