import WireKeeper.Interface.Scripted
import WireKeeper.Server.Bootstrap
import WireKeeper.Server.CommandLine
import WireKeeper.Server.Log
import WireKeeper.Settings.Source

/-! # A run of the server

From the command line to the exit code: read the settings, bootstrap, bring the interface up, wait
for a signal, bring the interface down.

`Server.run` gives the `Outcome` of a run: the code, what is said about a failure and the events
that were reported. A run that fails has the code `1`, one that cannot read its command line `2`,
and one that breaks off while it reads a stored record `101`. -/

namespace WireKeeper.Server

/-- Everything a run depends on, beside the tools: no other state of the machine is looked at. -/
structure Launch where
  arguments : List String
  environment : Environment
  disk : Disk
  /-- The key of the server if it has none yet. -/
  fresh : PrivateKey

/-- What a run prints on its first stream: an answer, or the events that were let through. -/
inductive Printed where
  | text (s : String)
  | log (format : LogFormat) (events : List LogEvent)

/-- The text of what is printed, a line for each event. -/
def Printed.render : Printed → String
  | .text s => s
  | .log format events => String.join (events.map fun e => e.line format ++ "\n")

/-- What comes of a run, as far as it can be seen from outside. -/
structure Outcome where
  code : UInt32
  printed : Printed
  errors : String

/-- A failure with what lies behind it: a single cause stands alone, several are numbered. The
further lines of a cause are indented like its first one. -/
def report (message : String) (causes : List String) : String :=
  let numbered := 1 < causes.length
  let indent := if numbered then "       " else "    "
  let lines := causes.zipIdx.map fun (cause, i) =>
    (if numbered then s!"    {i}: " else indent) ++ cause.replace "\n" ("\n" ++ indent) ++ "\n"
  let behind := if causes.isEmpty then "" else "\nCaused by:\n" ++ String.join lines
  s!"Error: {message}\n" ++ behind

/-- What lies behind refused settings: the error itself and, for a file that cannot be read, why. -/
def settingsCauses (e : SettingsError) : List String :=
  match e with
  | .unreadable _ fault => [e.message, fault.message]
  | _ => [e.message]

/-- The filter of a run: that of the environment if it can be read, or the configured level. -/
def logFilter (env : Environment) (logging : LoggingSettings) : LogFilter :=
  (((env "RUST_LOG").bind LogFilter.parse?) <|> LogFilter.parse? logging.level).getD ⟨[]⟩

/-- An event of the program itself, in contrast to those of its parts. -/
def event (level : LogLevel) (message : String) : LogEvent := ⟨level, "wish_server", message⟩

/-- The events of bootstrapping up to where it fails, if it does; each part that has succeeded
reports so. -/
def bootstrapEvents {α : Type} (r : Except BootstrapError α) : List LogEvent :=
  let opened := [⟨.debug, "wish_server_db::pool", "database pool created"⟩]
  let synced := [⟨.info, "wish_server_service::publickey", "admin keys synced"⟩]
  let ready := [⟨.info, "wish_server_service::wireguard", "wireguard service ready"⟩]
  match r with
  | .error (.notOpened ..) => []
  | .error (.notSynced _) => opened
  | .error (.notStarted _) => opened ++ synced
  | .ok _ =>
    opened ++ synced ++ ready ++ [event .info "server identity loaded"]

/-- The events of a use of a tool that ends with a message if it succeeds. A failure on the way is
told by the error, and only some kinds have an event too. -/
def toolEvents (message : String) (r : Except ServiceError Unit) : List LogEvent :=
  let tool := fun level message => ⟨level, "wish_server_wg::tools", message⟩
  let started := tool .trace "running tool"
  match r with
  | .ok _ => [started, ⟨.info, "wish_server_wg::controller", message⟩]
  | .error (.toolFailed _ stderr) =>
    if stderr = DiskError.notFound.message then [started, tool .warn "tool not found in PATH"]
    else if stderr.startsWith "timed out after " then [started, tool .warn "tool timed out"]
    else [started]
  | .error _ => []

variable {σ : Type}

/-- Run a bootstrapped service until a signal. If the interface does not come up, nobody waits for
one; if it does not come down, that is only reported. -/
def serve (service : Service) (tools : Toolbox σ) (h : Host σ) :
    Except ServiceError Unit × List LogEvent × Host σ :=
  let (up, h) := service.bringUp tools h
  let before := toolEvents "interface up" up
  match up with
  | .error e => (.error e, before, h)
  | .ok _ =>
    let waiting := [event .info "wg-wish server running", event .info "received shutdown signal"]
    let (down, h) := service.bringDown tools h
    let failed := match down with
      | .ok _ => []
      | .error _ => [event .error "failed to stop wireguard interface"]
    (.ok (), before ++ waiting ++ toolEvents "interface down" down ++ failed, h)

/-- Run the server with given settings. A run that breaks off while it reads a record has the code
101 and no report. -/
def runWith (l : Launch) (s : Settings) (tools : UInt64 → Toolbox σ) (state : σ) :
    Outcome × Host σ :=
  let filter := logFilter l.environment s.logging
  let printed := fun events => Printed.log s.logging.format (events.filter filter.enables)
  match bootstrapOn s l.fresh ⟨l.disk, state⟩ with
  | (.error e, h) =>
    let printed := printed (bootstrapEvents (.error e : Except BootstrapError Unit))
    if e.breaksOff then (⟨101, printed, StoreError.brokenOff.message⟩, h)
    else (⟨1, printed, report e.message e.causes⟩, h)
  | (.ok service, h) =>
    let (result, events, h) := serve service (tools s.wireguard.toolTimeout) h
    let printed := printed (bootstrapEvents (.ok () : Except BootstrapError Unit) ++ events)
    match result with
    | .ok _ => (⟨0, printed, ""⟩, h)
    | .error e =>
      (⟨1, printed, report "failed to start wireguard interface" [e.message]⟩, h)

/-- Run the server; the tools may take as many seconds as the settings allow. Arguments that cannot
be read end the run before its settings are looked for. -/
def run (l : Launch) (tools : UInt64 → Toolbox σ) (state : σ) : Outcome × Host σ :=
  let idle := ⟨l.disk, state⟩
  let named := l.environment "WGWISH_CONFIG"
  match Request.parse l.arguments named with
  | .error e => (⟨2, .text "", e.message⟩, idle)
  | .ok .help => (⟨0, .text (Request.helpText named), ""⟩, idle)
  | .ok .version => (⟨0, .text Request.versionText, ""⟩, idle)
  | .ok (.run file) =>
    match Settings.loadFor l.disk file l.environment with
    | .error e =>
      (⟨1, .text "", report "failed to load configuration" (settingsCauses e)⟩, idle)
    | .ok s => runWith l s tools state

end WireKeeper.Server
