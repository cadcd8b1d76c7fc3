import WireKeeper.Config.Server
import WireKeeper.Interface.Dump
import WireKeeper.Interface.Tools

/-! # The controller of the interface

A `Controller` owns the configuration of one interface: where its file is, what it holds, and which
of its steps are **armed** to fail once.

* `add`, `remove`, `stage`, `apply`: the peers, whose names stay different;
* `ConfigFile.render`, `ConfigFile.stage`, `ConfigFile.persist`: the three parts of writing the
  file, which replaces the old one at once;
* `Controller.start`, `stop`, `reload`, `stats`: the interface itself, by way of a toolbox. -/

namespace WireKeeper

/-- The steps that can be armed to fail once, which is how their failures are rehearsed. -/
inductive ArmedStep where
  | apply
  | remove
  deriving DecidableEq, Repr

/-- How an armed step is named in the message of its failure. -/
def ArmedStep.shown : ArmedStep → String
  | .apply => "ApplyStaged"
  | .remove => "RemovePeer"

/-- The controller of an interface. Without a configuration it is there, but every use of the peers
fails. -/
structure Controller where
  /-- Where the file of the configuration goes. -/
  configPath : String
  interface : String
  config : Option Config.Server := none
  armed : List ArmedStep := []
  deriving DecidableEq

/-- A peer that could be added when it was staged. It is not reserved: another one may take its name
before it is applied. -/
structure StagedPeer where
  peer : Config.ServerPeer
  deriving DecidableEq

namespace Controller

/-- Let the next step of a kind fail. To arm it twice is to arm it once. -/
def arm (c : Controller) (step : ArmedStep) : Controller :=
  { c with armed := step :: c.armed.filter (· ≠ step) }

/-- Fail if a step is armed, and disarm it, so that an armed failure occurs once and no more. -/
def fire (c : Controller) (step : ArmedStep) : Except InterfaceError Unit × Controller :=
  if c.armed.contains step then
    (.error (.toolFailed step.shown Rehearsal.injected),
      { c with armed := c.armed.filter (· ≠ step) })
  else (.ok (), c)

/-- Replace the whole configuration, peers included; what is armed stays armed. -/
def load (c : Controller) (config : Config.Server) : Controller := { c with config := some config }

/-- The configuration as it is now, or the error that there is none. -/
def snapshot (c : Controller) : Except InterfaceError Config.Server :=
  match c.config with
  | some config => .ok config
  | none => .error .notConfigured

/-- The peers of the configuration; without a configuration there are none. -/
def peers (c : Controller) : List Config.ServerPeer :=
  match c.config with
  | some config => config.peers
  | none => []

/-- Whether there is a peer with a name; an error without a configuration. -/
def has (c : Controller) (name : String) : Except InterfaceError Bool := do
  let config ← c.snapshot
  pure (config.find? name).isSome

/-- Check that a peer could be added: there is a configuration, and no peer in it has its name.
Nothing changes. -/
def stage (c : Controller) (peer : Config.ServerPeer) : Except InterfaceError StagedPeer := do
  let config ← c.snapshot
  if (config.find? peer.name).isSome then throw (.peerExists peer.name)
  pure ⟨peer⟩

/-- Add a peer at the end. This fails if there is no configuration or the name is there already, and
then nothing changes. -/
def add (c : Controller) (peer : Config.ServerPeer) : Except InterfaceError Unit × Controller :=
  match c.config with
  | none => (.error .notConfigured, c)
  | some config =>
    if (config.find? peer.name).isSome then (.error (.peerExists peer.name), c)
    else (.ok (), c.load { config with peers := config.peers ++ [peer] })

/-- Remove the first peer with a name. An armed failure comes first, before anyone looks whether
there is such a peer. -/
def remove (c : Controller) (name : String) : Except InterfaceError Unit × Controller :=
  match c.fire .remove with
  | (.error e, c) => (.error e, c)
  | (.ok _, c) =>
    match c.config with
    | none => (.error .notConfigured, c)
    | some config =>
      if (config.find? name).isSome then
        (.ok (), c.load { config with peers := config.peers.eraseP fun p => p.name == name })
      else (.error (.peerNotFound name), c)

/-- Add a staged peer, if it still can be added. An armed failure comes first; after it the peer may
be applied again. -/
def apply (c : Controller) (staged : StagedPeer) : Except InterfaceError Unit × Controller :=
  match c.fire .apply with
  | (.error e, c) => (.error e, c)
  | (.ok _, c) => c.add staged.peer

end Controller

/-! ## The file -/

namespace ConfigFile

/-- The mode of the file: only the owner reads it, for the private key is in it. -/
def mode : Nat := 0o600

/-- Whether a text can be part of a file name that is `extra` bytes longer: it has no slash and no
zero byte, and the name is not too long. -/
def isNamePart (s : String) (extra : Nat) : Bool :=
  !s.toList.contains '/' && !s.toList.contains '\x00' && s.utf8ByteSize + extra ≤ 255

/-- The text of the file, from the configuration as it is at this moment. -/
def render (c : Controller) : Except InterfaceError String := do
  let config ← c.snapshot
  pure (toString config)

/-- The directory of the file, as `d` resolves its path now. -/
def directory (c : Controller) (d : Disk) : Path := d.resolve (Disk.parentText c.configPath)

/-- Write the text to a file of its own beside the target; gives that file. When this fails, the
directory may have been made all the same. The name of the staged file has six random characters
behind the `-`, which are left out here: only their number counts, in the seventeen bytes by which
the name is longer than the interface's, and no file that is there already has a staged name. -/
def stage (c : Controller) (text : String) (d : Disk) : Except DiskError Path × Disk :=
  let directory := directory c d
  match d.createDirectories directory with
  -- directories that were made on the way do not stay
  | .error e => (.error e, d)
  | .ok d =>
    if isNamePart c.interface 17 then
      let staged := directory ++ ["." ++ c.interface ++ "-.conf.tmp"]
      (.ok staged, d.put staged (.file (Utf8.ofString text) mode))
    else (.error .notFound, d)

/-- Move the staged file over the target, which replaces the old file at once: at no time is there
half a file. -/
def persist (c : Controller) (staged : Path) (d : Disk) : Except DiskError Disk :=
  d.rename staged (d.resolve c.configPath)

/-- Write the file: `render`, `stage` and `persist` in this order. When this fails, a directory may
have been made but no file changes. -/
def write (c : Controller) (d : Disk) : Except InterfaceError Unit × Disk :=
  match render c with
  | .error e => (.error e, d)
  | .ok text =>
    match stage c text d with
    | (.error e, d) => (.error (.file e.message), d)
    | (.ok staged, d) =>
      match persist c staged d with
      | .error e => (.error (.file e.message), d.remove staged)
      | .ok d => (.ok (), d)

end ConfigFile

/-! ## The interface -/

namespace Controller

variable {σ : Type}

/-- Bring the interface up with the file of the configuration, by way of the tools; their output
does not matter. -/
def start (c : Controller) (tools : Toolbox σ) (h : Host σ) : Except InterfaceError Unit × Host σ :=
  let (result, h) := tools (.bringUp c.configPath) h
  (result.map fun _ => (), h)

/-- Bring the interface down with the file of the configuration, by way of the tools; their output
does not matter. -/
def stop (c : Controller) (tools : Toolbox σ) (h : Host σ) : Except InterfaceError Unit × Host σ :=
  let (result, h) := tools (.bringDown c.configPath) h
  (result.map fun _ => (), h)

/-- Write the stripped file to the scratch file and synchronize the interface with it; the scratch
file is removed whatever comes of it. -/
def synchronize (c : Controller) (tools : Toolbox σ) (scratch stripped : String) (h : Host σ) :
    Except InterfaceError Unit × Host σ :=
  let path := h.disk.resolve scratch
  if !ConfigFile.isNamePart c.interface 12 then (.error (.file DiskError.notFound.message), h)
  else
    match h.disk.writeFile path (Utf8.ofString stripped) ConfigFile.mode with
    | .error e => (.error (.file e.message), h)
    | .ok disk =>
      let (result, h) := tools (.synchronize c.interface scratch) { h with disk := disk }
      (result.map fun _ => (), { h with disk := h.disk.remove path })

/-- Give the running interface the configuration in the file, stripped by the tools of what only
matters at its start. -/
def reload (c : Controller) (tools : Toolbox σ) (scratch : String) (h : Host σ) :
    Except InterfaceError Unit × Host σ :=
  match tools (.strip c.configPath) h with
  | (.error e, h) => (.error e, h)
  | (.ok stripped, h) => c.synchronize tools scratch stripped h

/-- The traffic of the peers of the running interface, from the dump that the tools give. -/
def stats (c : Controller) (tools : Toolbox σ) (h : Host σ) :
    Except InterfaceError StatsMap × Host σ :=
  match tools (.statusDump c.interface) h with
  | (.error e, h) => (.error e, h)
  | (.ok dump, h) => ((Dump.parse dump).mapError .badDump, h)

end Controller

end WireKeeper
