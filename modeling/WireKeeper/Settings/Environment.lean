import WireKeeper.Settings.Error
import WireKeeper.Settings.Layer
import WireKeeper.Text.Basic

/-! # Settings in the environment

Each setting has a variable. An empty variable counts as missing. Lists are separated by commas, the
lines of authorized keys by line feeds; blanks around their items and empty items do not count.

`Layer.ofEnvironment` reads the variables into a layer that has all sections. -/

namespace WireKeeper

/-- The variables of a process, by name; a variable that is not set has no value. -/
abbrev Environment := String → Option String

namespace Environment

/-- How the names of all variables of settings begin, so that no other variable is taken for one. -/
def namesStart : String := "WGWISH_"

/-- The name of the variable of a setting: its section and its name, in capital letters. -/
def nameOf (field : String) : String := namesStart ++ field

/-- The settings that have variables, which are all seventeen. -/
def fields : List String :=
  ["DATABASE_PATH", "WIREGUARD_HOST", "WIREGUARD_PATH", "WIREGUARD_INTERFACE",
    "WIREGUARD_ADDRESS", "WIREGUARD_PORT", "WIREGUARD_DEVICE", "WIREGUARD_ALLOWED_IPS",
    "WIREGUARD_PERSISTENT_KEEPALIVE", "WIREGUARD_DNS", "WIREGUARD_TOOL_TIMEOUT_SECS", "SSH_PORT",
    "SSH_HOST_KEY_PATH", "SSH_ADMIN_KEYS", "SSH_REPLACE_ADMIN_KEYS", "LOGGING_LEVEL",
    "LOGGING_FORMAT"]

/-- The value of a setting; an empty one counts as missing. -/
def text (env : Environment) (field : String) : Option String :=
  (env (nameOf field)).filter fun v => !v.isEmpty

/-- A setting that is on or off: `true` in any case and `1` are on, and anything else is off. -/
def boolean (env : Environment) (field : String) : Option Bool :=
  (env.text field).map fun v => v.map Char.toLower == "true" || v == "1"

/-- A setting that is a number; blanks around it do not count. The error shows the value as it is
set. -/
def number (env : Environment) (field : String) (kind : NumberKind) :
    Except SettingsError (Option Nat) :=
  match env.text field with
  | none => .ok none
  | some v =>
    match Text.decimal? kind.bound (Text.trim v.toList) with
    | some n => .ok (some n)
    | none => .error (.notNumber (nameOf field) kind v)

/-- A setting that is a number of sixteen bits, such as a port. -/
def word16 (env : Environment) (field : String) : Except SettingsError (Option UInt16) :=
  (env.number field .word16).map fun n => n.map UInt16.ofNat

/-- A setting that is a number of sixty-four bits, such as a number of seconds. -/
def word64 (env : Environment) (field : String) : Except SettingsError (Option UInt64) :=
  (env.number field .word64).map fun n => n.map UInt64.ofNat

/-- A setting that is a list, of which the blanks around its items and the empty items do not count.
A list of blanks only is there, and empty. -/
def list (env : Environment) (field : String) (separator : Char) : Option (List String) :=
  (env.text field).map fun v =>
    (((v.toList.splitOn separator).map Text.trim).filter (!·.isEmpty)).map String.ofList

/-- A setting that is a log format; the error shows the value as it is set. -/
def format (env : Environment) (field : String) : Except SettingsError (Option LogFormat) :=
  match env.text field with
  | none => .ok none
  | some v =>
    match LogFormat.parse v with
    | some f => .ok (some f)
    | none => .error (.notFormat (nameOf field) v)

end Environment

namespace Layer

/-- Read the settings of the interface; the first number that is wrong counts. -/
def Wireguard.ofEnvironment (env : Environment) : Except SettingsError Wireguard := do
  let port ← env.word16 "WIREGUARD_PORT"
  let keepalive ← env.word16 "WIREGUARD_PERSISTENT_KEEPALIVE"
  let timeout ← env.word64 "WIREGUARD_TOOL_TIMEOUT_SECS"
  pure {
    host := env.text "WIREGUARD_HOST"
    path := env.text "WIREGUARD_PATH"
    interface := env.text "WIREGUARD_INTERFACE"
    address := env.text "WIREGUARD_ADDRESS"
    port := port
    device := env.text "WIREGUARD_DEVICE"
    allowedIPs := env.list "WIREGUARD_ALLOWED_IPS" ','
    persistentKeepalive := keepalive
    dns := env.list "WIREGUARD_DNS" ','
    toolTimeout := timeout }

/-- Read the settings of administrators, whose keys stand on lines of their own. -/
def Ssh.ofEnvironment (env : Environment) : Except SettingsError Ssh := do
  let port ← env.word16 "SSH_PORT"
  pure {
    port := port
    hostKeyPath := env.text "SSH_HOST_KEY_PATH"
    adminKeys := env.list "SSH_ADMIN_KEYS" '\n'
    replaceAdminKeys := env.boolean "SSH_REPLACE_ADMIN_KEYS" }

/-- Read the settings of logging; the level is looked at when all layers are joined. -/
def Logging.ofEnvironment (env : Environment) : Except SettingsError Logging := do
  let format ← env.format "LOGGING_FORMAT"
  pure { level := env.text "LOGGING_LEVEL", format := format }

/-- Read all settings, section by section. Every section is there, be it without a single
setting. -/
def ofEnvironment (env : Environment) : Except SettingsError Layer := do
  let wireguard ← Wireguard.ofEnvironment env
  let ssh ← Ssh.ofEnvironment env
  let logging ← Logging.ofEnvironment env
  pure {
    database := some ⟨env.text "DATABASE_PATH"⟩
    wireguard := some wireguard
    ssh := some ssh
    logging := some logging }

end Layer

end WireKeeper
