import WireKeeper.AuthorizedKey
import WireKeeper.Host.Disk
import WireKeeper.Net.Address

/-! # What is wrong with settings

The causes for which settings are refused, with their wording. -/

namespace WireKeeper

/-- Why a file cannot be read as text: the disk refuses, or its bytes are no UTF-8. -/
inductive TextFault where
  | disk (reason : DiskError)
  | notText
  deriving DecidableEq, Repr

/-- The wording of a fault; that of the disk is its own. -/
def TextFault.message : TextFault → String
  | .disk reason => reason.message
  | .notText => "stream did not contain valid UTF-8"

/-- The numbers that the environment gives, by their size. -/
inductive NumberKind where
  | word16
  | word64
  deriving DecidableEq, Repr

namespace NumberKind

/-- The numbers are below this bound, which is a power of two. -/
def bound : NumberKind → Nat
  | word16 => 0x10000
  | word64 => 0x10000000000000000

/-- What the kind is called in messages. -/
def word : NumberKind → String
  | word16 => "u16"
  | word64 => "u64"

end NumberKind

/-- A rule for settings that a value can break although it can be read. -/
inductive SettingsRule where
  | hostRequired
  | portNonZero
  | interfaceRequired
  | sshPortNonZero
  | knownLevel (found : String)
  deriving DecidableEq, Repr

/-- The levels of logging, from the one that lets most through on. -/
def logLevels : List String := ["trace", "debug", "info", "warn", "error"]

/-- The wording of a broken rule, which says what would be right. -/
def SettingsRule.message : SettingsRule → String
  | hostRequired =>
    "wireguard.host is required (set it in the config file or WGWISH_WIREGUARD_HOST)"
  | portNonZero => "wireguard.port must be non-zero"
  | interfaceRequired => "wireguard.interface must not be empty"
  | sshPortNonZero => "ssh.port must be non-zero"
  | knownLevel found =>
    let known := ", ".intercalate logLevels
    s!"logging.level must be one of {known}, got '{found}'"

/-- Why settings are refused; the first error in the order of the sources counts. -/
inductive SettingsError where
  | unreadable (path : String) (fault : TextFault)
  /-- No document of settings. -/
  | malformed (path : String)
  /-- A variable that is no number. -/
  | notNumber (name : String) (kind : NumberKind) (value : String)
  /-- A variable that is no log format. -/
  | notFormat (name value : String)
  /-- A field that holds no address or net. -/
  | badAddress (field : String) (reason : AddressError)
  /-- A line that is no authorized key, by its number. -/
  | badAdminKey (index : Nat) (reason : AuthorizedKeyError)
  | broken (rule : SettingsRule)
  deriving DecidableEq, Repr

/-- The wording of an error. What is wrong inside a document is not told. -/
def SettingsError.message : SettingsError → String
  | .unreadable path fault => s!"failed to read config file {path}: {fault.message}"
  | .malformed path => s!"failed to parse config file {path}"
  | .notNumber name kind value =>
    s!"invalid value for {name}: invalid {kind.word} value '{value}'"
  | .notFormat name value =>
    s!"invalid value for {name}: expected 'pretty' or 'json', got '{value}'"
  | .badAddress field reason => s!"invalid value for {field}: {reason.message}"
  | .badAdminKey index reason => s!"invalid value for ssh.admin_keys[{index}]: {reason.message}"
  | .broken rule => s!"configuration validation failed: {rule.message}"

end WireKeeper
