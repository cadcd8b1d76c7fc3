import WireKeeper.Settings.Environment
import WireKeeper.Settings.File
import WireKeeper.Settings.Resolved

/-! # Sources of settings

Settings come from built-in defaults, from files, from the environment, and from whatever else says
how it is called, where it stands and how it is read. Sources are read in the order of their
precedence, and each is laid over those before it; among sources of one precedence the given order
counts.

* `Source.load` reads one source;
* `Settings.load` reads all, up to the first that fails, and resolves what they say. -/

namespace WireKeeper

/-- A source of settings. Those of another kind may read the disk in any way of their own. -/
inductive Source where
  /-- Says nothing; every field has its default where layers are resolved. -/
  | defaults
  /-- A file; one that is not required may be missing. -/
  | file (path : String) (required : Bool)
  | environment (env : Environment)
  /-- A source of another kind. -/
  | other (name : String) (precedence : Nat) (read : Disk → Except SettingsError Layer)

namespace Source

/-- What a source is called; several sources may have one name. -/
def name : Source → String
  | defaults => "defaults"
  | file .. => "toml-config"
  | environment _ => "environment"
  | other name .. => name

/-- Sources of a higher precedence are laid over those of a lower one. Any source of another kind
has its own. -/
def precedence : Source → Nat
  | defaults => 10
  | file .. => 20
  | environment _ => 50
  | other _ precedence _ => precedence

/-- Read a file of settings; the error says whether it is missing, no text or no such document. -/
def loadFile (disk : Disk) (path : String) : Except SettingsError Layer :=
  match disk.contents (disk.resolve path) with
  | .error e => .error (.unreadable path (.disk e))
  | .ok bytes =>
    match Utf8.decode bytes with
    | .error _ => .error (.unreadable path .notText)
    | .ok text =>
      match Layer.ofToml? text with
      | none => .error (.malformed path)
      | some layer => .ok layer

/-- Read a source. A file that is not required may be missing, but one that is there has to be
readable. -/
def load (disk : Disk) : Source → Except SettingsError Layer
  | defaults => .ok .empty
  | file path required =>
    if !required && (disk.find (disk.resolve path)).toOption.isNone then .ok .empty
    else loadFile disk path
  | environment env => Layer.ofEnvironment env
  | other _ _ read => read disk

/-- Sources in the order of their precedence; those of one precedence keep the order in which they
were given. -/
def inOrder (sources : List Source) : List Source :=
  sources.mergeSort fun a b => decide (a.precedence ≤ b.precedence)

/-- Lay what sources say over a layer, one after the other, up to the first that fails. -/
def layAll (disk : Disk) (sources : List Source) (base : Layer) : Except SettingsError Layer :=
  sources.foldlM (fun l s => (s.load disk).map l.overlay) base

end Source

namespace Settings

/-- The file that counts unless another is named; it may be missing. -/
def systemFile : String := "/etc/wg-wish/server.toml"

/-- Settings from given sources: they are put in order, laid over each other and resolved. -/
def load (disk : Disk) (sources : List Source) : Except SettingsError Settings :=
  (Source.layAll disk (Source.inOrder sources) .empty).bind ofLayer

/-- Settings of a process: defaults, a file and its environment. A file that is named has to be
there. -/
def loadFor (disk : Disk) (file : Option String) (env : Environment) :
    Except SettingsError Settings :=
  let source := match file with
    | some path => Source.file path true
    | none => .file systemFile false
  load disk [.defaults, source, .environment env]

end Settings

end WireKeeper
