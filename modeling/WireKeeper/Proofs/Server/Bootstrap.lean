import WireKeeper.Proofs.Host.Disk
import WireKeeper.Proofs.Service.Administrators
import WireKeeper.Proofs.Service.Identity
import WireKeeper.Server.Bootstrap

/-! # Bootstrapping again

A server that came up once comes up again as the same one. The keys of the administrators are
written over themselves, the identity is read that was written before, and from the same rows of
peers comes the same configuration and the same cursor. The directory of the database is there the
second time, and so is its file.

* `Service.start_again`: a second start of the service;
* `Server.Prepared`: a store that was prepared, and can be prepared again;
* `Server.Opened`: a disk that a database was opened on, where it can be opened again;
* `Server.not_bootstrap_transient`: a path that names no file, on which no server comes up;
* `Server.bootstrap_again`: a second run of the whole. -/

namespace WireKeeper

/-! ## The service -/

namespace Service

variable {s : Service} {settings : ServiceSettings} {fresh : PrivateKey} {store : Store}
  {controller : Controller} {db db' : Database} {i : ServerIdentity}

/-- A start changes no rows but those of the server: `db'.rows b = db.rows b` for every other
bucket. -/
theorem Rooted.rows_of_ne (h : Rooted fresh db db' i) {b : Bucket} (hb : b ≠ .server) :
    db'.rows b = db.rows b := by
  cases h with
  | read _ _ _ _ same => exact same b
  | created _ _ others => exact others b hb

/-- A start replaces what is committed and nothing else of the store. -/
theorem store_eq_of_start (h : start settings fresh store controller = .ok s) :
    s.store = store.withCommitted s.store.committed := by
  obtain ⟨-, -, i, peers, db, -, -, rfl⟩ := start_eq_ok.1 h
  rfl

/-- A service that was started is started again on the store that it left: the identity is read, and
the fresh key does not matter. -/
theorem start_again (h : start settings fresh store controller = .ok s) (fresh' : PrivateKey) :
    start settings fresh' s.store controller = .ok s := by
  obtain ⟨hfree, hopen, i, peers, db, hidentity, hall, rfl⟩ := start_eq_ok.1 h
  obtain ⟨value, hget, hi⟩ := identified_of_run_identity hidentity
  -- this time there is an identity, which is read
  have hidentity' : (identity fresh').run .update db = (.ok i, db) := by
    rw [run_identity, Identity.run_get_of_row hget, hi]
  exact start_eq_ok.2 ⟨hfree, hopen, i, peers, db, hidentity', hall, rfl⟩

/-- The peers of a service that was started are in the order of their names, so no two of them have
one name. -/
theorem pairwise_names_of_start (h : start settings fresh store controller = .ok s) :
    (s.controller.peers.map fun q => Peers.key q.name).Pairwise (· < ·) := by
  obtain ⟨i, peers, hstarted⟩ := of_start_eq_ok h
  have hpeers : s.controller.peers = peers.map projection := by rw [hstarted.controller_eq]; rfl
  have hkeys : peers.map (fun p => Peers.key p.name) = store.peerRows.toList.map Prod.fst :=
    map_of_mapM_ok (fun r p hp => (Peers.ofRow_eq_ok.1 hp).1.symm) hstarted.read
  rw [hpeers, List.map_map]
  show (peers.map fun p => Peers.key p.name).Pairwise (· < ·)
  rw [hkeys]
  exact List.pairwise_map.2 store.peerRows.sorted

end Service

namespace Server

variable {s : Settings} {fresh : PrivateKey} {store store₁ : Store} {service : Service}

/-! ## The store -/

/-- The controller of a server before anything is loaded, with the paths of the settings. -/
def controllerOf (s : Settings) : Controller := ⟨s.wireguard.path, s.wireguard.interface, none, []⟩

/-- A service that was **prepared** on a store: the keys of the administrators are written, and it
would be started again. -/
structure Prepared (s : Settings) (store : Store) (service : Service) : Prop where
  store_eq : service.store = store.withCommitted service.store.committed
  sound : service.store.committed.Sound
  /-- The keys of the administrators were written. -/
  credentials : service.store.committed.rows .credentials =
    Credentials.insertAll (s.ssh.adminKeys.map Administrators.credential)
      (if s.ssh.replaceAdminKeys then ∅ else store.committed.rows .credentials)
  /-- The service would be started again. -/
  again : ∀ fresh, Service.start s.wireguard.toServiceSettings fresh service.store
    (controllerOf s) = .ok service
  names : (service.controller.peers.map fun q => Peers.key q.name).Pairwise (· < ·)

/-- What a preparation makes: a service that was prepared on the store. -/
theorem of_prepare_eq_ok (hsound : store.committed.Sound) (hfree : store.free = true)
    (hopen : store.closed = false) (h : prepare s fresh store = (.ok service, store₁)) :
    store₁ = service.store ∧ Prepared s store service := by
  rw [prepare, Administrators.Roster.sync_eq hsound hfree hopen] at h
  simp only at h
  split at h
  · cases h
  · next service' hstart =>
    cases h
    -- the keys were written before the start, which leaves their rows alone
    obtain ⟨i, hrooted, -⟩ := Service.rooted_of_start hstart
    obtain ⟨_, _, hstarted⟩ := Service.of_start_eq_ok hstart
    have hstore := Service.store_eq_of_start hstart
    refine ⟨rfl, hstore.trans rfl, hstarted.sound (hsound.withRows _ _), ?_,
      Service.start_again hstart, Service.pairwise_names_of_start hstart⟩
    rw [hrooted.rows_of_ne (by decide), Store.committed_withCommitted, Database.rows_withRows,
      if_pos rfl]

/-- A store that was prepared is prepared again, and nothing changes: the keys are written over
themselves. -/
theorem Prepared.prepare_eq (h : Prepared s store service) (hfree : store.free = true)
    (hopen : store.closed = false) (fresh : PrivateKey) :
    prepare s fresh service.store = (.ok service, service.store) := by
  have hfree' : service.store.free = true := h.store_eq ▸ hfree
  have hopen' : service.store.closed = false := h.store_eq ▸ hopen
  -- the keys are written over themselves, or over none
  have hsame : Credentials.insertAll (s.ssh.adminKeys.map Administrators.credential)
      (if s.ssh.replaceAdminKeys then ∅ else service.store.committed.rows .credentials) =
        service.store.committed.rows .credentials := by
    rw [h.credentials]
    split
    · rfl
    · exact Credentials.insertAll_insertAll _ _
  rw [prepare, Administrators.Roster.sync_eq h.sound hfree' hopen', hsame, h.sound.withRows_rows,
    Store.withCommitted_committed]
  have hagain := h.again fresh
  rw [controllerOf] at hagain
  simp only [hagain]

/-! ## The disk -/

/-- A disk that a database can be **opened** on, in its file or in a new one. -/
structure Opened (d : Disk) (path : String) : Prop where
  /-- The path is not written as that of a directory. -/
  named : path.toList.getLast? ≠ some '/'
  leads : d.Leads (d.directoryOf path)
  short : (d.resolve path).any (255 < ·.utf8ByteSize) = false
  file : d.isDirectory (d.resolve path) = false

variable {d d₁ : Disk} {path : String} {db : Database}

/-- A disk that a database was read from is one that it can be opened on. -/
theorem opened_of_readDatabase (hleads : d.Leads (d.directoryOf path))
    (h : readDatabase d path = .ok db) : Opened d path := by
  rw [readDatabase] at h
  split at h
  · cases h
  · next hnamed =>
    have hshort : (d.resolve path).any (255 < ·.utf8ByteSize) = false := by
      rw [Bool.eq_false_iff]
      intro hlong
      rw [Disk.find_of_long hlong] at h
      cases h
    refine ⟨hnamed, hleads, hshort, ?_⟩
    -- a directory in the place of the file would have been found
    rw [Bool.eq_false_iff]
    intro hdirectory
    rw [Disk.find_eq (fun k hk => hleads.isDirectory_above_resolve hnamed hk) hshort,
      of_decide_eq_true hdirectory] at h
    cases h

/-- A database that was opened was written to its file, on a disk that it can be opened on. -/
theorem opened_of_openDatabase (hcurrent : d.Leads d.current) (hpath : isTransient path = false)
    (h : openDatabase d path = (.ok db, d₁)) :
    ∃ d₀, Opened d₀ path ∧ d₁ = saveDatabase d₀ path db true := by
  rw [openDatabase, if_neg (Bool.eq_false_iff.1 hpath)] at h
  split at h
  · cases h
  · next d₀ hmade =>
    -- the directory of the file is the current one, or was made with those above it
    have hleads : d₀.Leads (d₀.directoryOf path) := by
      rw [Disk.directoryOf]
      split at hmade
      · next hnone =>
        cases hmade
        rwa [if_pos hnone]
      · next hsome =>
        obtain ⟨hsame, hleads, -⟩ := Disk.of_createDirectories hmade
        rw [if_neg hsome, Disk.resolve, hsame]
        exact hleads
    split at h
    · cases h
    · next hread =>
      cases h
      exact ⟨d₀, opened_of_readDatabase hleads hread, rfl⟩

/-- A database that is sound has nothing to restore: no bucket of it is missing. -/
theorem restored_of_sound (h : db.Sound) : db.restored = db := by
  obtain ⟨credentials, hcredentials, -⟩ := h .credentials
  obtain ⟨peers, hpeers, -⟩ := h .peers
  obtain ⟨server, hserver, -⟩ := h .server
  cases db
  cases hcredentials
  cases hpeers
  cases hserver
  rfl

/-- A database that is written to its file takes the place of the one before, and nothing of that is
left. -/
theorem saveDatabase_saveDatabase (d : Disk) (path : String) (db db' : Database)
    (isOpen isOpen' : Bool) :
    saveDatabase (saveDatabase d path db isOpen) path db' isOpen' =
      saveDatabase d path db' isOpen' := by
  cases hpath : isTransient path with
  | true => simp only [saveDatabase, hpath, if_true]
  | false =>
    simp only [saveDatabase, hpath, Bool.false_eq_true, if_false]
    exact Disk.put_put d (d.resolve path) _ _

/-- A database that was written to its file is opened, and is the same. -/
theorem Opened.openDatabase_saveDatabase (h : Opened d path) (hpath : isTransient path = false)
    (hsound : db.Sound) (isOpen : Bool) :
    openDatabase (saveDatabase d path db isOpen) path = (.ok db, saveDatabase d path db true) := by
  rw [openDatabase, if_neg (Bool.eq_false_iff.1 hpath)]
  obtain ⟨saved, hsaved⟩ : ∃ saved, saveDatabase d path db isOpen = saved := ⟨_, rfl⟩
  have hput : saved = d.put (d.resolve path) (.database db isOpen) :=
    hsaved.symm.trans (if_neg (Bool.eq_false_iff.1 hpath))
  -- the file is in the way of no directory, so there is none to make
  have hmade : (if Disk.parentText path = "" then .ok saved
      else saved.createDirectories (saved.resolve (Disk.parentText path))) = .ok saved := by
    have hleads : saved.Leads (saved.directoryOf path) := hput ▸ h.leads.put _ h.file
    split
    · rfl
    · next hsome =>
      rw [Disk.directoryOf, if_neg hsome] at hleads
      exact hleads.createDirectories
  have hread : readDatabase saved path = .ok db := by
    have hroot : d.resolve path ≠ [] := fun hroot => by
      have hfile := h.file
      rw [hroot] at hfile
      cases hfile
    have hfind : saved.find (d.resolve path) = .ok (.database db isOpen) := by
      rw [hput, Disk.find_eq (fun k hk => Disk.isDirectory_put_of_not _ h.file
        (h.leads.isDirectory_above_resolve h.named hk)) h.short, Disk.node?_put d hroot]
    have hresolve : saved.resolve path = d.resolve path := hput ▸ rfl
    rw [readDatabase, if_neg h.named, hresolve, hfind]
    exact congrArg Except.ok (restored_of_sound hsound)
  simp only [hsaved, hmade, hread]
  rw [← hsaved, saveDatabase_saveDatabase]

/-! ## The whole -/

variable {disk disk₁ : Disk}

/-- What a bootstrap does: it opens the database, prepares the service on it, and keeps what was
committed. -/
theorem of_bootstrap_eq_ok (h : bootstrap s fresh disk = (.ok service, disk₁)) :
    ∃ db disk₀ store, openDatabase disk s.database = (.ok db, disk₀) ∧
      prepare s fresh { committed := db } = (.ok service, store) ∧
      disk₁ = saveDatabase disk₀ s.database store.committed true := by
  rw [bootstrap] at h
  split at h
  · cases h
  · next db disk₀ hopened =>
    cases hprepare : prepare s fresh { committed := db } with
    | mk result store =>
      rw [hprepare] at h
      cases h
      exact ⟨db, disk₀, store, hopened, hprepare, rfl⟩

/-- On a database without buckets no server comes up, and nothing is changed. Without keys to
install and to replace, it is the service that first misses a bucket. -/
theorem prepare_bare (s : Settings) (fresh : PrivateKey) :
    prepare s fresh { committed := .bare } =
      (.error (if s.ssh.replaceAdminKeys = false ∧ s.ssh.adminKeys = [] then
        .notStarted (.internal (.store .database)) else .notSynced (.internal (.store .database))),
        { committed := .bare }) := by
  obtain ⟨database, wireguard, ⟨port, hostKeyPath, adminKeys, replaceAdminKeys⟩, logging⟩ := s
  cases replaceAdminKeys with
  | true => rfl
  | false =>
    cases adminKeys with
    | nil => rfl
    | cons key keys => rfl

/-- A path that names no file cannot be bootstrapped on: no run there succeeds. -/
theorem not_bootstrap_transient (hpath : isTransient s.database = true) :
    bootstrap s fresh disk ≠ (.ok service, disk₁) := by
  intro h
  obtain ⟨db, disk₀, store, hopened, hprepare, -⟩ := of_bootstrap_eq_ok h
  rw [openDatabase, if_pos hpath] at hopened
  cases hopened
  rw [prepare_bare] at hprepare
  cases hprepare

/-- `openDatabase d path = (.ok db, d₁)` gives `db.Sound`: a database that is opened from a file is
sound if the one at its path was, for opening adds directories to the disk, and the only new
database it makes is an empty one. -/
theorem sound_of_openDatabase {db : Database} {d d₁ : Disk} {path : String}
    (hpath : isTransient path = false)
    (hfile : ∀ db isOpen, d.node? (d.resolve path) = some (.database db isOpen) → db.restored.Sound)
    (h : openDatabase d path = (.ok db, d₁)) : db.Sound := by
  rw [openDatabase, if_neg (Bool.eq_false_iff.1 hpath)] at h
  split at h
  · cases h
  · next d₀ hmade =>
    -- directories at most are made, so what is at the path was there before
    have hwidens : d.Widens d₀ ∧ d₀.current = d.current := by
      split at hmade
      · cases hmade
        exact ⟨.refl d, rfl⟩
      · exact ⟨Disk.widens_createDirectories hmade, (Disk.of_createDirectories hmade).1⟩
    have hresolve : d₀.resolve path = d.resolve path := by
      rw [Disk.resolve, Disk.resolve, hwidens.2]
    split at h
    · cases h
    · next db' hread =>
      cases h
      rw [readDatabase, hresolve] at hread
      split at hread
      · cases hread
      · split at hread
        · next db' isOpen hfind =>
          cases hread
          obtain hnode | hnode := hwidens.1.others _ _ (Disk.node?_of_find hfind)
          · cases hnode
          · exact hfile db' isOpen hnode
        · cases hread
        · -- an empty file is a new database
          split at hread
          · cases hread
            exact Database.sound_empty
          · cases hread
        · cases hread
          exact Database.sound_empty
        · cases hread

/-- Where a database can be opened, a server that was prepared on it bootstraps again, be its file
open or closed, and leaves it open. -/
theorem Opened.bootstrap_eq (h : Opened d s.database) (hpath : isTransient s.database = false)
    (hprepared : Prepared s { committed := db } service) (fresh : PrivateKey) (isOpen : Bool) :
    bootstrap s fresh (saveDatabase d s.database service.store.committed isOpen) =
      (.ok service, saveDatabase d s.database service.store.committed true) := by
  have hstore : { committed := service.store.committed } = service.store := hprepared.store_eq.symm
  rw [bootstrap, h.openDatabase_saveDatabase hpath hprepared.sound isOpen]
  simp only [hstore, hprepared.prepare_eq rfl rfl fresh, saveDatabase_saveDatabase]
  rfl

/-- **A bootstrap is idempotent.** A server that came up, in a current directory that is there and
on a database whose file refuses nothing, comes up again as the same one, whatever key is fresh. On
its store nothing changes: no row, and so neither the identity of the server nor its administrators.
The service is the same, with its public key, its cursor and its configuration, whose peers are in
the order of their names. On the machine the file of the database stays the same too, whether it was
closed in between or not. No tool is used. -/
theorem bootstrap_again {σ : Type} (s : Settings) (fresh : PrivateKey) (h h₁ : Host σ)
    (service : Service) (hcurrent : h.disk.Leads h.disk.current)
    (hfile : ∀ db isOpen, h.disk.node? (h.disk.resolve s.database) = some (.database db isOpen) →
      db.restored.Sound)
    (hok : bootstrapOn s fresh h = (.ok service, h₁)) :
    (∀ fresh', prepare s fresh' service.store = (.ok service, service.store)) ∧
      (∀ fresh', bootstrapOn s fresh' h₁ = (.ok service, h₁) ∧
        bootstrapOn s fresh' { h₁ with
          disk := saveDatabase h₁.disk s.database service.store.committed false } =
            (.ok service, h₁)) ∧
      (service.controller.peers.map fun q => Peers.key q.name).Pairwise (· < ·) ∧
      h₁.tools = h.tools := by
  obtain ⟨disk₁, hfirst⟩ : ∃ disk₁, bootstrap s fresh h.disk = (.ok service, disk₁) := by
    rw [bootstrapOn] at hok
    exact ⟨_, Prod.ext (Prod.mk.inj hok).1 rfl⟩
  -- nothing but the disk of the machine is another
  have hh₁ : h₁ = { h with disk := disk₁ } := by
    rw [bootstrapOn, hfirst] at hok
    exact (Prod.mk.inj hok).2.symm
  subst hh₁
  obtain ⟨db, disk₀, store, hopened, hprepare, hdisk₁⟩ := of_bootstrap_eq_ok hfirst
  -- the path names a file: on any other the server would not have come up
  have hpath : isTransient s.database = false :=
    Bool.eq_false_iff.2 fun htransient => not_bootstrap_transient htransient hfirst
  have hsound := sound_of_openDatabase hpath hfile hopened
  obtain ⟨rfl, hprepared⟩ := of_prepare_eq_ok hsound rfl rfl hprepare
  refine ⟨hprepared.prepare_eq rfl rfl, fun fresh' => ?_, hprepared.names, rfl⟩
  obtain ⟨d, hd, rfl⟩ := opened_of_openDatabase hcurrent hpath hopened
  rw [saveDatabase_saveDatabase] at hdisk₁
  subst hdisk₁
  simp only [saveDatabase_saveDatabase]
  constructor
  · rw [bootstrapOn, hd.bootstrap_eq hpath hprepared]
  · rw [bootstrapOn, hd.bootstrap_eq hpath hprepared]

/-- Settings with a list of administrators that repeats a blob and replaces those before. -/
def repeatingSettings : Settings where
  database := "state/wg.db"
  wireguard := { Service.sampleSettings with
    path := "wg0.conf", interface := "wg0", toolTimeout := 30 }
  ssh := ⟨51822, "host_ed25519", [Administrators.firstKey "alice", Administrators.secondKey "ops",
    Administrators.firstKey "alice@host"], true⟩
  logging := ⟨"info", .pretty⟩

/-- A database with two clients, of which the one with the lower address has the later name, and an
administrator that is not listed. -/
def inheritedDatabase : Database :=
  let peer name n : PeerIdentity :=
    ⟨name, Service.sampleSettings.address.withValue n, ⟨.ofNat n⟩, ⟨.ofNat n⟩, [], [], none⟩
  let bob := peer "bob" 0x0A090802
  let alice := peer "alice" 0x0A090809
  (Database.empty.withRows .peers
      (((∅ : Rows).insert (Peers.key "bob") bob.encode).insert (Peers.key "alice") alice.encode))
    |>.withRows .credentials ((∅ : Rows).insert [9] [])

/-- A machine with that database in a file that is closed, and with no tools. -/
def inheritingHost : Host Unit where
  disk := { nodes :=
    [(["state"], .directory), (["state", "wg.db"], .database inheritedDatabase false)] }
  tools := ()

/-- The server that came up on it has both clients, and comes up again with another fresh key. -/
theorem bootstrap_again_inherited :
    ∃ service h₁, bootstrapOn repeatingSettings ⟨.ofNat 1⟩ inheritingHost = (.ok service, h₁) ∧
      service.controller.peers.map (·.name) = ["alice", "bob"] ∧
      bootstrapOn repeatingSettings ⟨.ofNat 2⟩ h₁ = (.ok service, h₁) := by
  -- the first run is evaluated, and the second follows
  have hok : (bootstrapOn repeatingSettings ⟨.ofNat 1⟩ inheritingHost).1.toOption.map
      (fun service => service.controller.peers.map (·.name)) = some ["alice", "bob"] := by
    decide +kernel
  obtain ⟨service, hservice, hnames⟩ := exists_of_toOption_map hok
  have hsound : inheritedDatabase.Sound :=
    (Database.sound_empty.withRows .peers _).withRows .credentials _
  have hnode : inheritingHost.disk.node? (inheritingHost.disk.resolve repeatingSettings.database) =
      some (.database inheritedDatabase false) := by decide +kernel
  have hfirst : bootstrapOn repeatingSettings ⟨.ofNat 1⟩ inheritingHost =
      (.ok service, (bootstrapOn repeatingSettings ⟨.ofNat 1⟩ inheritingHost).2) :=
    Prod.ext hservice rfl
  obtain ⟨-, hagain, -⟩ := bootstrap_again repeatingSettings ⟨.ofNat 1⟩ inheritingHost _ service
    (Disk.leads_nil _) (fun db isOpen h => by
      rw [h] at hnode
      cases hnode
      rw [restored_of_sound hsound]
      exact hsound) hfirst
  exact ⟨service, _, hfirst, hnames, (hagain ⟨.ofNat 2⟩).1⟩

end Server

end WireKeeper
