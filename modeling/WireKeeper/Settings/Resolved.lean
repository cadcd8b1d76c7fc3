import WireKeeper.Net.Subnet
import WireKeeper.Settings.Error
import WireKeeper.Settings.Layer

/-! # Resolved settings

A layer becomes settings when each field that is not set takes its default, addresses and keys are
read, and the rules for values hold.

* `Layer.resolve` fills in and reads;
* `Settings.check` tests the rules, in a fixed order;
* `Settings.ofLayer` does both. -/

namespace WireKeeper

/-- What a service is told when it starts; nothing of it changes while it runs. -/
structure ServiceSettings where
  /-- Where clients reach the server. -/
  host : String
  /-- The server's address; its network is the subnet of the clients. -/
  address : Net
  port : UInt16
  /-- The device that forwarded traffic leaves by. -/
  device : String
  dns : List Address
  allowedIPs : List Net
  persistentKeepalive : Option UInt16
  deriving DecidableEq

/-- The settings of the interface: those of the service and where the tools find it. -/
structure InterfaceSettings extends ServiceSettings where
  /-- The configuration file of the interface. -/
  path : String
  interface : String
  /-- How many seconds a tool may take. -/
  toolTimeout : UInt64
  deriving DecidableEq

/-- The settings of administrators and of the access that is theirs. -/
structure SshSettings where
  port : UInt16
  hostKeyPath : String
  adminKeys : List AuthorizedKey
  /-- Whether keys that are not listed lose their access. -/
  replaceAdminKeys : Bool
  deriving DecidableEq

/-- The settings of logging; the level is one of `logLevels` once the rules are checked. -/
structure LoggingSettings where
  level : String
  format : LogFormat
  deriving DecidableEq

/-- All settings of the server, with their addresses and keys read. -/
structure Settings where
  /-- The file of the database. -/
  database : String
  wireguard : InterfaceSettings
  ssh : SshSettings
  logging : LoggingSettings
  deriving DecidableEq

namespace Layer

/-- The settings of the interface. A missing field takes its default, and a keepalive of zero
seconds means none. -/
def Wireguard.resolve (l : Wireguard) : Except SettingsError InterfaceSettings := do
  let address ← (Net.parse (l.address.getD "10.9.8.1/24")).mapError
    (.badAddress "wireguard.address")
  let allowedIPs ← (Net.parseAll (l.allowedIPs.getD ["0.0.0.0/0"])).mapError
    (.badAddress "wireguard.allowed_ips")
  let dns ← (Address.parseAll (l.dns.getD ["1.1.1.1", "8.8.8.8"])).mapError
    (.badAddress "wireguard.dns")
  let keepalive := l.persistentKeepalive.getD 25
  pure {
    host := l.host.getD ""
    address := address
    port := l.port.getD 51820
    device := l.device.getD "eth0"
    dns := dns
    allowedIPs := allowedIPs
    persistentKeepalive := if keepalive = 0 then none else some keepalive
    path := l.path.getD "/var/lib/wg-wish/wg0.conf"
    interface := l.interface.getD "wg0"
    toolTimeout := l.toolTimeout.getD 30 }

/-- Read authorized keys from their lines; blank lines are left out. The first line that is no key
is reported by its number among the lines that are not blank, as `resolve_adminKeys` says. -/
def readAdminKeys (lines : List String) : Except SettingsError (List AuthorizedKey) :=
  let kept := lines.filter fun line => !(Text.trim line.toList).isEmpty
  -- the numbers count what is kept, from zero
  kept.zipIdx.mapM fun (line, index) => (AuthorizedKey.parse line).mapError (.badAdminKey index)

/-- The settings of administrators. A missing field takes its default, which for the keys
is none. -/
def Ssh.resolve (l : Ssh) : Except SettingsError SshSettings := do
  let adminKeys ← readAdminKeys (l.adminKeys.getD [])
  pure {
    port := l.port.getD 51822
    hostKeyPath := l.hostKeyPath.getD "/var/lib/wg-wish/host_ed25519"
    adminKeys := adminKeys
    replaceAdminKeys := l.replaceAdminKeys.getD false }

/-- The settings of logging; the case of the level does not matter. This cannot fail, for the level
is only checked afterwards. -/
def Logging.resolve (l : Logging) : LoggingSettings :=
  ⟨(l.level.map fun s => s.map Char.toLower).getD "info", l.format.getD .pretty⟩

/-- The file of the database, a path that is taken as it is. -/
def Database.resolve (l : Database) : String := l.path.getD "/var/lib/wg-wish/wg-wish.db"

/-- The settings that a layer means, or the first field of it that cannot be read; a section that is
missing has its defaults. -/
def resolve (l : Layer) : Except SettingsError Settings := do
  let wireguard ← (l.wireguard.getD {}).resolve
  let ssh ← (l.ssh.getD {}).resolve
  pure ⟨(l.database.getD {}).resolve, wireguard, ssh, (l.logging.getD {}).resolve⟩

end Layer

namespace Settings

/-- The first rule that settings break, in a fixed order; `none` if they break none. -/
def brokenRule? (s : Settings) : Option SettingsRule :=
  if (Text.trim s.wireguard.host.toList).isEmpty then some .hostRequired
  else if s.wireguard.port = 0 then some .portNonZero
  else if s.wireguard.interface.isEmpty then some .interfaceRequired
  else if s.ssh.port = 0 then some .sshPortNonZero
  else if !logLevels.contains s.logging.level then some (.knownLevel s.logging.level)
  else none

/-- Refuse settings that break a rule; others stay as they are. -/
def check (s : Settings) : Except SettingsError Settings :=
  match s.brokenRule? with
  | some rule => .error (.broken rule)
  | none => .ok s

/-- Settings from a layer: it is resolved, and then the rules are checked. -/
def ofLayer (l : Layer) : Except SettingsError Settings := l.resolve.bind check

end Settings

end WireKeeper
