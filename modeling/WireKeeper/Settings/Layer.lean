/-! # Layers of settings

What one source says about the settings. A field that the source does not mention is `none`, and so
is a section that it does not mention at all; values are kept as they were given.

`Layer.overlay` puts one layer over another: a field that the upper one does not set stays. -/

namespace WireKeeper

/-- How log lines are written: for those who read them, or for programs. -/
inductive LogFormat where
  | pretty
  | json
  deriving DecidableEq, Repr

namespace LogFormat

/-- The word for a format, in small letters. -/
def word : LogFormat → String
  | pretty => "pretty"
  | json => "json"

/-- The format that a word means; the case of its letters matters here. -/
def ofWord? (s : String) : Option LogFormat := [pretty, json].find? fun f => f.word = s

/-- Read a format; the case of letters does not matter. -/
def parse (s : String) : Option LogFormat := ofWord? (s.map Char.toLower)

/-- `ofWord? f.word = some f`: the word for a format is read as that format. -/
@[simp] theorem ofWord?_word (f : LogFormat) : ofWord? f.word = some f := by cases f <;> decide

end LogFormat

namespace Layer

/-- What a source says about the database: where its file lies. -/
structure Database where
  path : Option String := none
  deriving DecidableEq, Repr

/-- What a source says about the interface. Addresses and nets are texts here, which are read when
all layers are joined. -/
structure Wireguard where
  host : Option String := none
  path : Option String := none
  interface : Option String := none
  address : Option String := none
  port : Option UInt16 := none
  device : Option String := none
  allowedIPs : Option (List String) := none
  persistentKeepalive : Option UInt16 := none
  dns : Option (List String) := none
  toolTimeout : Option UInt64 := none
  deriving DecidableEq, Repr

/-- What a source says about administrators and their access. Keys are lines here, which are read
when all layers are joined. -/
structure Ssh where
  port : Option UInt16 := none
  hostKeyPath : Option String := none
  adminKeys : Option (List String) := none
  replaceAdminKeys : Option Bool := none
  deriving DecidableEq, Repr

/-- What a source says about logging; the level is a word here, which is looked at when all layers
are joined. -/
structure Logging where
  level : Option String := none
  format : Option LogFormat := none
  deriving DecidableEq, Repr

/-- The field of both, the upper one first. -/
def Database.overlay (lower upper : Database) : Database := ⟨upper.path.or lower.path⟩

/-- The fields of both, the upper ones first; a list counts as a whole and is not joined with the
other. -/
def Wireguard.overlay (lower upper : Wireguard) : Wireguard where
  host := upper.host.or lower.host
  path := upper.path.or lower.path
  interface := upper.interface.or lower.interface
  address := upper.address.or lower.address
  port := upper.port.or lower.port
  device := upper.device.or lower.device
  allowedIPs := upper.allowedIPs.or lower.allowedIPs
  persistentKeepalive := upper.persistentKeepalive.or lower.persistentKeepalive
  dns := upper.dns.or lower.dns
  toolTimeout := upper.toolTimeout.or lower.toolTimeout

/-- The fields of both, the upper ones first; a list counts as a whole and is not joined with the
other. -/
def Ssh.overlay (lower upper : Ssh) : Ssh where
  port := upper.port.or lower.port
  hostKeyPath := upper.hostKeyPath.or lower.hostKeyPath
  adminKeys := upper.adminKeys.or lower.adminKeys
  replaceAdminKeys := upper.replaceAdminKeys.or lower.replaceAdminKeys

/-- The fields of both, the upper ones first: each of the two stays unless the upper
layer has it. -/
def Logging.overlay (lower upper : Logging) : Logging where
  level := upper.level.or lower.level
  format := upper.format.or lower.format

/-- Put a section over another; a section that the upper layer lacks changes nothing, and one that
the lower layer lacks counts as `empty`. -/
def overlaySection {α : Type} (empty : α) (overlay : α → α → α) (lower upper : Option α) :
    Option α :=
  match upper with
  | none => lower
  | some u => some (overlay (lower.getD empty) u)

end Layer

/-- What a source says about the settings, section by section; a section may be there without a
field. -/
structure Layer where
  database : Option Layer.Database := none
  wireguard : Option Layer.Wireguard := none
  ssh : Option Layer.Ssh := none
  logging : Option Layer.Logging := none
  deriving DecidableEq, Repr

namespace Layer

/-- The layer that says nothing: no section is there. -/
def empty : Layer := {}

/-- Put a layer over another, section by section: what the upper one sets counts, and the rest
stays. -/
def overlay (lower upper : Layer) : Layer where
  database := overlaySection {} Database.overlay lower.database upper.database
  wireguard := overlaySection {} Wireguard.overlay lower.wireguard upper.wireguard
  ssh := overlaySection {} Ssh.overlay lower.ssh upper.ssh
  logging := overlaySection {} Logging.overlay lower.logging upper.logging

/-- `l.overlay empty = l`: a layer that says nothing changes nothing. -/
@[simp] theorem overlay_empty (l : Layer) : l.overlay empty = l := rfl

end Layer

end WireKeeper
