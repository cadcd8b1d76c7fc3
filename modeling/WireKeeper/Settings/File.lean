import WireKeeper.Settings.Layer
import WireKeeper.Toml.Document

/-! # Settings in a TOML document

A section of settings is a table; keys that no setting has do not matter. A section may also be
given as an array of the values of its fields in their order, which may be shorter than the list of
the fields. A date has no fields at all.

`Layer.ofToml?` reads a document into a layer. -/

namespace WireKeeper

open Toml (Item Entries)

namespace Toml.Item

/-- The entries of a section with given fields: those of a table, or the items of an array by their
places. A date has none, and any other item is no section. -/
def entries? (fields : List String) : Item → Option Entries
  | .table _ entries => some entries
  | .array items => some (fields.zip items)
  | .tables items => some (fields.zip items)
  | .dateTime => some []
  | _ => none

/-- A text; a number or a truth value is none, even where it would read as one. -/
def text? : Item → Option String
  | .string s => some s
  | _ => none

/-- A truth value, which is not the text of one. -/
def boolean? : Item → Option Bool
  | .boolean b => some b
  | _ => none

/-- A number that is not negative and below a bound; a float is none, even without a fraction. -/
def natural? (bound : Nat) : Item → Option Nat
  | .integer n => if 0 ≤ n ∧ n < bound then some n.toNat else none
  | _ => none

/-- A number of sixteen bits, such as a port. -/
def word16? (item : Item) : Option UInt16 := (item.natural? 0x10000).map UInt16.ofNat

/-- A number of sixty-four bits, such as a number of seconds. -/
def word64? (item : Item) : Option UInt64 := (item.natural? 0x10000000000000000).map UInt64.ofNat

/-- A list of texts; a single text is none. -/
def texts? : Item → Option (List String)
  | .array items => items.mapM text?
  | _ => none

/-- An array or a table without contents; anything else has some. -/
def isEmpty : Item → Bool
  | .array items => items.isEmpty
  | .tables items => items.isEmpty
  | .table _ entries => entries.isEmpty
  | _ => false

/-- A log format: its word, or a table with the word as its only key and nothing in it. -/
def format? : Item → Option LogFormat
  | .string s => LogFormat.ofWord? s
  | .table _ [(word, item)] => if item.isEmpty then LogFormat.ofWord? word else none
  | _ => none

end Toml.Item

namespace Toml.Entries

/-- Read a field, which may be missing; if it is there, it must be readable. -/
def optional {α : Type} (entries : Entries) (field : String) (read : Item → Option α) :
    Option (Option α) :=
  match entries.lookup field with
  | none => some none
  | some item => (read item).map some

end Toml.Entries

namespace Layer

/-- Read the section about the database, which has one field. -/
def Database.ofItem? (item : Item) : Option Database := do
  let e ← item.entries? ["path"]
  some { path := ← e.optional "path" Item.text? }

/-- Read the section about the interface; its fields, in this order, are also the places of an
array. -/
def Wireguard.ofItem? (item : Item) : Option Wireguard := do
  let e ← item.entries? ["host", "path", "interface", "address", "port", "device", "allowed_ips",
    "persistent_keepalive", "dns", "tool_timeout_secs"]
  some {
    host := ← e.optional "host" Item.text?
    path := ← e.optional "path" Item.text?
    interface := ← e.optional "interface" Item.text?
    address := ← e.optional "address" Item.text?
    port := ← e.optional "port" Item.word16?
    device := ← e.optional "device" Item.text?
    allowedIPs := ← e.optional "allowed_ips" Item.texts?
    persistentKeepalive := ← e.optional "persistent_keepalive" Item.word16?
    dns := ← e.optional "dns" Item.texts?
    toolTimeout := ← e.optional "tool_timeout_secs" Item.word64? }

/-- Read the section about administrators; its fields, in this order, are also the places of an
array. -/
def Ssh.ofItem? (item : Item) : Option Ssh := do
  let e ← item.entries? ["port", "host_key_path", "admin_keys", "replace_admin_keys"]
  some {
    port := ← e.optional "port" Item.word16?
    hostKeyPath := ← e.optional "host_key_path" Item.text?
    adminKeys := ← e.optional "admin_keys" Item.texts?
    replaceAdminKeys := ← e.optional "replace_admin_keys" Item.boolean? }

/-- Read the section about logging; its fields, in this order, are also the places of an array. -/
def Logging.ofItem? (item : Item) : Option Logging := do
  let e ← item.entries? ["level", "format"]
  some {
    level := ← e.optional "level" Item.text?
    format := ← e.optional "format" Item.format? }

/-- Read the entries of a document, each of whose sections may be missing. -/
def ofEntries? (e : Entries) : Option Layer := do
  some {
    database := ← e.optional "database" Database.ofItem?
    wireguard := ← e.optional "wireguard" Wireguard.ofItem?
    ssh := ← e.optional "ssh" Ssh.ofItem?
    logging := ← e.optional "logging" Logging.ofItem? }

/-- Read a document; `none` if it is no TOML or does not fit. -/
def ofToml? (text : List Char) : Option Layer := (Toml.Document.read text).bind ofEntries?

end Layer

end WireKeeper
