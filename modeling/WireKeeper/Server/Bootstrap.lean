import WireKeeper.Service.Administrators
import WireKeeper.Service.Clients
import WireKeeper.Settings.Resolved

/-! # Bootstrapping the server

From settings to a running service: open the database, install the keys of the administrators, start
the service of the clients. No tool is used.

* `Server.openDatabase` opens a file as a database, or says why not;
* `Server.prepare` does the rest on an open store;
* `Server.bootstrap` does both and leaves the database on the disk, `Server.bootstrapOn` on the disk
  of a machine. -/

namespace WireKeeper.Server

/-- Why a database cannot be opened, as far as the system and the engine tell it. -/
inductive OpenFault where
  /-- Its directory cannot be made. -/
  | noDirectory (path : String) (reason : DiskError)
  | cannotOpen
  /-- There is a file that is no database. -/
  | notDatabase
  deriving DecidableEq, Repr

namespace OpenFault

/-- The error of the store that a fault means; only the first kind has a text of its own. -/
def storeError : OpenFault → StoreError
  | noDirectory path reason => .internal s!"create {path}: {reason.message}"
  | _ => .database

/-- A fault and what lies behind it, the outermost first, as it is told when the server does not
come up. -/
def causes : OpenFault → List String
  | noDirectory path reason => [(noDirectory path reason).storeError.message]
  | cannotOpen => chain "(code: 14) unable to open database file"
  | notDatabase => chain "(code: 26) file is not a database"
where
  /-- The layers of an error of the database engine. -/
  chain (text : String) : List String :=
    let inner := "error returned from database: " ++ text
    ["Database error: " ++ inner, inner, text]

end OpenFault

/-- Whether a path names no file. Such a database is not shared: each connection to it has one of
its own, which lasts as long as the connection. -/
def isTransient (path : String) : Bool := path = "" || path = ":memory:"

/-- Look at the file of a database. A missing or empty file is a new database, and buckets that are
missing in an old one are made. -/
def readDatabase (disk : Disk) (path : String) : Except OpenFault Database :=
  if path.toList.getLast? = some '/' then .error .cannotOpen
  else
    match disk.find (disk.resolve path) with
    | .ok (.database db _) => .ok db.restored
    | .ok .directory => .error .cannotOpen
    | .ok (.file contents _) => if contents.isEmpty then .ok .empty else .error .notDatabase
    | .error .notFound => .ok .empty
    | .error _ => .error .cannotOpen

/-- Write a database to its file; `isOpen` says whether its working files lie beside it. A path that
names no file keeps nothing. -/
def saveDatabase (disk : Disk) (path : String) (db : Database) (isOpen : Bool) : Disk :=
  if isTransient path then disk else disk.put (disk.resolve path) (.database db isOpen)

/-- Open a database; its directory is made if it is missing.

A path that names no file is opened too, but every connection to it has a database of its own. Each
bucket is made on whichever connection is free, so none of them has all the buckets, and a
transaction on another one misses some. Which connection a transaction is given is not modelled: it
is one without any bucket, `Database.bare`. Any other path is the name of a file; what the engine
makes of a name that it can take for a URI is left out. -/
def openDatabase (disk : Disk) (path : String) : Except OpenFault Database × Disk :=
  let parent := Disk.parentText path
  if isTransient path then (.ok .bare, disk)
  else
    match if parent = "" then .ok disk else disk.createDirectories (disk.resolve parent) with
    | .error reason => (.error (.noDirectory parent reason), disk)
    | .ok disk =>
      match readDatabase disk path with
      | .error fault => (.error fault, disk)
      | .ok db => (.ok db, saveDatabase disk path db true)

/-- Why the server does not come up, by the part in which it fails. -/
inductive BootstrapError where
  | notOpened (path : String) (fault : OpenFault)
  | notSynced (reason : ServiceError)
  | notStarted (reason : ServiceError)
  deriving DecidableEq

namespace BootstrapError

/-- The wording of an error, which tells the part only; the reasons are among its `causes`. -/
def message : BootstrapError → String
  | notOpened path _ => s!"failed to open database {path}"
  | notSynced _ => "failed to sync admin keys"
  | notStarted _ => "failed to initialise wireguard service"

/-- Whether the server broke off while it came up, so that nobody gets this error. -/
def breaksOff : BootstrapError → Bool
  | notOpened .. => false
  | notSynced reason => reason.breaksOff
  | notStarted reason => reason.breaksOff

/-- What lies behind an error, the outermost first; the error itself is not among it. -/
def causes : BootstrapError → List String
  | notOpened _ fault => fault.causes
  | notSynced reason => [reason.message]
  | notStarted reason => [reason.message]

end BootstrapError

/-- Install the administrators' keys and start the service on a store, in this order; what the first
has written stays if the second fails. -/
def prepare (s : Settings) (fresh : PrivateKey) (store : Store) :
    Except BootstrapError Service × Store :=
  match Administrators.sync s.ssh.adminKeys s.ssh.replaceAdminKeys store with
  | (.error e, store) => (.error (.notSynced e), store)
  | (.ok _, store) =>
    let controller := ⟨s.wireguard.path, s.wireguard.interface, none, []⟩
    match Service.start s.wireguard.toServiceSettings fresh store controller with
    | .error e => (.error (.notStarted e), store)
    | .ok service => (.ok service, service.store)

/-- Bring the server up; `fresh` becomes its key if it has none. The database is left on the disk,
open if the server is up. -/
def bootstrap (s : Settings) (fresh : PrivateKey) (disk : Disk) :
    Except BootstrapError Service × Disk :=
  match openDatabase disk s.database with
  | (.error fault, disk) => (.error (.notOpened s.database fault), disk)
  | (.ok db, disk) =>
    let (result, store) := prepare s fresh { committed := db }
    (result, saveDatabase disk s.database store.committed result.isOk)

/-- Bring the server up on a machine, whose tools are left alone. -/
def bootstrapOn {σ : Type} (s : Settings) (fresh : PrivateKey) (h : Host σ) :
    Except BootstrapError Service × Host σ :=
  let (result, disk) := bootstrap s fresh h.disk
  (result, { h with disk := disk })

end WireKeeper.Server
