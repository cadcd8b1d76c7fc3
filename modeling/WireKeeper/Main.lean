import WireKeeper.Server.Run
import WireKeeper.Store.Listing

/-! # The program

The server on a machine. `Server.run` decides everything; here the files and variables that it looks
at are fetched, and what it has written and printed is handed back.

The programs that act on the interface are taken from the search path and run as scripts. The
database is kept as its listing. -/

namespace WireKeeper.Machine

/-- Fetch the variables that a run looks at; any others are not there for it. -/
def fetchEnvironment : IO Environment := do
  let names := ["WGWISH_CONFIG", "RUST_LOG", "PATH"] ++ Environment.fields.map Environment.nameOf
  let found ← names.filterMapM fun name => do
    return (← IO.getEnv name).map fun value => (name, value)
  return fun name => found.lookup name

/-- Read a file of the machine, if it can be read; why it cannot does not matter here. -/
def readFile? (path : String) : IO (Option Bytes) := do
  try
    return some (← IO.FS.readBinFile path).toList
  catch _ => return none

/-- Put a file of the machine on a disk, if it is there, with the directories above it. The file of
a database is read as its listing, and stays a file if it is none. -/
def fetchFile (isDatabase : Bool) (disk : Disk) (path : String) : IO Disk := do
  match ← readFile? path with
  | none => return disk
  | some contents =>
    let p := disk.resolve path
    let disk := (disk.createDirectories p.dropLast).toOption.getD disk
    let listed := (Utf8.decode contents).toOption.bind Database.ofListing?
    match if isDatabase then listed else none with
    | some db => return disk.put p (.database db false)
    | none => return disk.put p (.file contents 0o600)

/-- Hand a file of a disk back to the machine; the file of a database is written as its listing. -/
def storeFile (disk : Disk) (path : String) : IO Unit := do
  let contents := match disk.find (disk.resolve path) with
    | .ok (.file contents _) => some contents
    | .ok (.database db _) => some (Utf8.ofString db.listing)
    | _ => none
  if let some contents := contents then
    let parent := Disk.parentText path
    if parent ≠ "" then IO.FS.createDirAll parent
    IO.FS.writeBinFile path ⟨contents.toArray⟩

/-- Look for a program in the directories of the search path, where the first one found counts. Its
first line names what runs it and is no part of the script. -/
def fetchProgram (name searchPath : String) : IO Program := do
  let missing : Program := ⟨name, name, none, 1⟩
  (searchPath.splitOn ":").foldlM (fun found directory => do
    if found.script.isSome then return found
    let path := directory ++ "/" ++ name
    match (← readFile? path).map (String.ofList ∘ Utf8.decodeLossyFrom 0) with
    | none => return found
    | some text => return ⟨name, path, some ("\n".intercalate (text.splitOn "\n").tail), 2⟩) missing

/-- A key that nobody else knows, from random bytes of the machine. -/
def randomKey : IO PrivateKey := do
  let random ← IO.getRandomBytes 32
  match KeyBytes.ofBytes random.toList with
  | .ok key => return .generate key
  | .error _ => throw (IO.userError "too few random bytes")

/-- The files that a run reads and writes: that of the database and that of the interface. Without
valid settings there are none. -/
def filesOf (disk : Disk) (config : Option String) (env : Environment) : Option (String × String) :=
  (Settings.loadFor disk config env).toOption.map fun s => (s.database, s.wireguard.path)

end WireKeeper.Machine

open WireKeeper in
/-- Run the server with arguments; gives the exit code. What the run has written to its disk is
handed back at the end. -/
def main (arguments : List String) : IO UInt32 := do
  let env ← Machine.fetchEnvironment
  let config := match Request.parse arguments (env "WGWISH_CONFIG") with
    | .ok (.run config) => config
    | _ => none
  let current := (← IO.currentDir).toString
  let disk : Disk := { current := (({} : Disk).resolve current) }
  let disk := (disk.createDirectories disk.current).toOption.getD disk
  let disk ← Machine.fetchFile false disk (config.getD Settings.systemFile)
  let files := Machine.filesOf disk config env
  let disk ← match files with
    | some (database, interface) => do
      Machine.fetchFile false (← Machine.fetchFile true disk database) interface
    | none => pure disk
  let searchPath := (env "PATH").getD ""
  let quick ← Machine.fetchProgram "wg-quick" searchPath
  let wg ← Machine.fetchProgram "wg" searchPath
  let toolbox := fun (seconds : UInt64) =>
    (⟨quick, wg, seconds.toNat * 1000⟩ : ScriptedTools).toolbox
  let launch := ⟨arguments, env, disk, ← Machine.randomKey⟩
  let (outcome, host) := Server.run launch toolbox []
  if let some (database, interface) := files then
    Machine.storeFile host.disk database
    Machine.storeFile host.disk interface
  IO.print outcome.printed.render
  IO.eprint outcome.errors
  return outcome.code
