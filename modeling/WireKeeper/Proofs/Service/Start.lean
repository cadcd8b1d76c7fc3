import WireKeeper.Proofs.Record.RoundTrip
import WireKeeper.Proofs.Store.Transactions
import WireKeeper.Service.Clients

/-! # Starting a service

A service starts on every free store whose rows are read. It reads all peers, and writes at most the
identity of the server.

* `start_eq_ok`: when a service is started, and what it is made of (`madeOf`);
* `of_start_eq_ok`: what is known of a service that was started;
* `exists_start`: that it starts. -/

namespace WireKeeper

namespace Service

variable {fresh : PrivateKey} {db db' : Database}

/-- Reading the identity without failing when there is none: a fresh one is written then, and any
other error is one. -/
theorem run_identity (fresh : PrivateKey) (db : Database) :
    (identity fresh).run .update db =
      match (Identity.get.run .update db).1 with
      | .ok identity => (.ok identity, db)
      | .error (.notFound _) =>
        (do
          Identity.set ⟨fresh⟩
          pure ⟨fresh⟩ : Access ServerIdentity).run .update db
      | .error e => (.error e, db) := by
  have hsnd : (Identity.get.run .update db).2 = db := Identity.run_get_snd
  rw [identity, Access.run_bind, Access.run_tryCatch, Access.run_map]
  cases hget : Identity.get.run .update db with
  | mk r db' =>
    rw [hget] at hsnd
    cases hsnd
    cases r with
    | ok i => rfl
    | error e => cases e <;> rfl

/-- Giving the server an identity touches no row of a peer, and leaves a sound database sound. -/
theorem of_run_identity {i : ServerIdentity}
    (h : (identity fresh).run .update db = (.ok i, db')) :
    db'.rows .peers = db.rows .peers ∧ (db.Sound → db'.Sound) := by
  rw [run_identity] at h
  split at h
  · cases h
    exact ⟨rfl, id⟩
  · obtain ⟨u, db₁, hset, hrest⟩ := Access.run_bind_eq_ok.1 h
    cases hrest
    obtain ⟨hrows, hsound⟩ := Access.of_run_put hset
    exact ⟨hrows .peers (by decide), hsound⟩
  · cases h

/-- The database is **identified** if the identity of the server is read, or there is none. -/
def Identified (db : Database) : Prop :=
  ∀ value, (db.rows .server).get? Identity.key = some value →
    ∃ i, ServerIdentity.decode value = .ok i

/-- On a sound database whose identity is read or missing, the server has one afterwards. -/
theorem exists_run_identity (hsound : db.Sound) (hidentified : Identified db)
    (fresh : PrivateKey) :
    ∃ i db', (identity fresh).run .update db = (.ok i, db') ∧ Identified db' := by
  have hrun : Identity.get.run .update db = _ := Identity.run_get hsound
  rw [run_identity, hrun]
  -- a stored identity is kept; without one, the fresh one is written, and what is written is read
  -- back
  cases hget : (db.rows .server).get? Identity.key with
  | some value =>
    obtain ⟨i, hi⟩ := hidentified value hget
    simp only [hi]
    exact ⟨i, db, rfl, hidentified⟩
  | none =>
    refine ⟨⟨fresh⟩, _, Access.run_bind_ok (Identity.run_set hsound ⟨fresh⟩), ?_⟩
    intro value hvalue
    rw [Database.rows_withRows, if_pos rfl, Rows.get?_insert_self] at hvalue
    cases hvalue
    exact ⟨_, ServerIdentity.decode_encode _⟩

/-! ## The start -/

variable {settings : ServiceSettings} {store : Store} {controller : Controller} {s : Service}

/-- The service that is made of the identity of the server, of peers, and of what is committed. -/
def madeOf (settings : ServiceSettings) (store : Store) (controller : Controller)
    (identity : ServerIdentity) (peers : List PeerIdentity) (db : Database) : Service :=
  ⟨settings, identity.privateKey.publicKey,
    Allocation.cursor settings.address (peers.map PeerIdentity.address), store.withCommitted db,
    controller.load (interfaceConfig settings controller.interface identity peers)⟩

/-- A service is started if and only if the store is free and open, and the identity and then all
peers are read. It is made of these, and what giving the server an identity left is committed. -/
theorem start_eq_ok :
    start settings fresh store controller = .ok s ↔
      store.free = true ∧ store.closed = false ∧ ∃ i peers db,
        (identity fresh).run .update store.committed = (.ok i, db) ∧
        Peers.all.run .update db = (.ok peers, db) ∧
        madeOf settings store controller i peers db = s := by
  constructor
  · intro h
    rw [start] at h
    split at h
    · cases h
    · next i peers store' hupdate =>
      cases h
      obtain ⟨hfree, hopen, db, hload, rfl⟩ := Store.update_eq_ok.1 hupdate
      obtain ⟨i', db₁, hidentity, hrest⟩ := Access.run_bind_eq_ok.1 hload
      obtain ⟨peers', db₂, hall, hpure⟩ := Access.run_bind_eq_ok.1 hrest
      cases hpure
      -- reading the peers changes nothing any more
      obtain ⟨rfl, -⟩ := Peers.of_run_all hall
      exact ⟨hfree, hopen, i, peers, db, hidentity, hall, rfl⟩
  · rintro ⟨hfree, hopen, i, peers, db, hidentity, hall, rfl⟩
    have hload : (load fresh).run .update store.committed = (.ok (i, peers), db) :=
      (Access.run_bind_ok hidentity).trans (Access.run_bind_ok hall)
    rw [start, Store.update_eq_ok.2 ⟨hfree, hopen, db, hload, rfl⟩]
    rfl

/-- What is known of a service that was started: the settings, the identity of the server, and the
peers that the rows of the store are read as. The rows themselves stay as they are. -/
structure Started (settings : ServiceSettings) (store : Store) (controller : Controller)
    (identity : ServerIdentity) (peers : List PeerIdentity) (s : Service) : Prop where
  settings_eq : s.settings = settings
  publicKey_eq : s.publicKey = identity.privateKey.publicKey
  cursor_eq : s.cursor = Allocation.cursor settings.address (peers.map PeerIdentity.address)
  controller_eq : s.controller =
    controller.load (interfaceConfig settings controller.interface identity peers)
  read : store.peerRows.toList.mapM Peers.ofRow = .ok peers
  peerRows_eq : s.store.peerRows = store.peerRows
  free : s.store.free = true
  isOpen : s.store.closed = false
  sound : store.committed.Sound → s.store.committed.Sound

/-- A service that was started was made of the rows of the store: `start settings fresh store
controller = .ok s` gives an identity and peers it was started from. -/
theorem of_start_eq_ok (h : start settings fresh store controller = .ok s) :
    ∃ i peers, Started settings store controller i peers s := by
  obtain ⟨hfree, hopen, i, peers, db, hidentity, hall, rfl⟩ := start_eq_ok.1 h
  -- the peers are read after the identity was written, which leaves their rows alone
  obtain ⟨hrows, hsound⟩ := of_run_identity hidentity
  obtain ⟨-, hpeers⟩ := Peers.of_run_all hall
  rw [hrows] at hpeers
  exact ⟨i, peers, rfl, rfl, rfl, rfl, hpeers, hrows, hfree, hopen, hsound⟩

/-- A service starts on a free store that is sound and whose rows are read, and the identity is
still there afterwards. Nothing is asked of the settings or of the controller. -/
theorem exists_start (hsound : store.committed.Sound) (hfree : store.free = true)
    (hopen : store.closed = false) (hidentified : Identified store.committed)
    (hreadable : store.peerRows.Readable) (settings : ServiceSettings) (fresh : PrivateKey)
    (controller : Controller) :
    ∃ s, start settings fresh store controller = .ok s ∧ Identified s.store.committed := by
  obtain ⟨i, db, hidentity, hi⟩ := exists_run_identity hsound hidentified fresh
  obtain ⟨hrows, hdb⟩ := of_run_identity hidentity
  obtain ⟨peers, hpeers⟩ := hreadable.exists_all
  have hall : Peers.all.run .update db = (.ok peers, db) := by
    rw [Peers.run_all (hdb hsound), hrows]
    exact Prod.ext hpeers rfl
  exact ⟨_, start_eq_ok.2 ⟨hfree, hopen, i, peers, db, hidentity, hall, rfl⟩, hi⟩

end Service

end WireKeeper
