import WireKeeper.Proofs.Service.Failure
import WireKeeper.Proofs.Service.InterfaceFile
import WireKeeper.Proofs.Service.Listing
import WireKeeper.Proofs.Service.Resume

/-! # The identity of the server

The first start that succeeds gives the server its key, in the transaction that also reads the
peers: if one of them cannot be read, the key is gone with the transaction. From then on the row of
the server stays as it is, and everything that shows the server's key shows this one.

* `Service.Rooted`: the start of a service, seen from the rows of its store;
* `Service.rows_after_of_ne`: calls change no rows but those of the peers;
* `Installation`: a store with the service that runs on it, and what happens to them;
* `Service.Carries`: a service shows the key of an identity wherever it shows one;
* `Installation.lasting_identity`: starts, and runs after them. -/

namespace WireKeeper

/-! ## The row of the server -/

/-- A stored value that cannot be read is there all the same: reading it never says that something
is missing. -/
theorem ServerIdentity.decode_ne_notFound (value : Bytes) (subject : Subject) :
    ServerIdentity.decode value ≠ .error (.notFound subject) := by
  intro h
  rw [decode] at h
  -- every reader on the way fails with an error of its own
  rcases bind_eq_error.1 h with h | ⟨payload, -, h⟩
  · rw [Record.unframe] at h
    split at h
    · next hsplit =>
      cases value <;> cases hsplit
      cases h
    · split at h <;> cases h
  rcases bind_eq_error.1 h with h | ⟨v, -, h⟩
  · rw [Record.readPayload] at h
    split at h <;> cases h
  rcases bind_eq_error.1 h with h | ⟨bytes, -, h⟩
  · rw [Record.expect] at h
    split at h <;> cases h
  rcases bind_eq_error.1 h with h | ⟨key, -, h⟩
  · rw [Record.readKey] at h
    split at h <;> cases h
  · cases h

namespace Access

variable {db db' : Database} {b : Bucket}

/-- What was written is in its rows: `db'.rows b` are those of `db` with the key and the value. -/
theorem rows_of_run_put {key value : Bytes} {u : Unit}
    (h : (put b key value).run .update db = (.ok u, db')) :
    db'.rows b = (db.rows b).insert key value := by
  rw [put, run_bind_ok run_requireUpdate] at h
  obtain ⟨t, db₁, ht, hrest⟩ := run_bind_eq_ok.1 h
  obtain ⟨rfl, ht⟩ := of_run_table ht
  split at hrest
  · cases hrest
  · cases hrest
    rw [Database.rows_of_table ht, Database.rows, Database.table_setTable, if_pos rfl]

end Access

namespace Service

variable {s s' : Service} {fresh : PrivateKey} {db db' : Database} {i : ServerIdentity}

/-- How an identity and the rows after a start come from the rows before it: the identity was read
and nothing was written, or there was none and a fresh one was written. -/
inductive Rooted (fresh : PrivateKey) (db db' : Database) : ServerIdentity → Prop where
  | read (value : Bytes) (i : ServerIdentity)
    (stored : (db.rows .server).get? Identity.key = some value)
    (decoded : ServerIdentity.decode value = .ok i) (same : ∀ b, db'.rows b = db.rows b) :
    Rooted fresh db db' i
  | created (missing : (db.rows .server).get? Identity.key = none)
    (written : db'.rows .server =
      (db.rows .server).insert Identity.key (ServerIdentity.encode ⟨fresh⟩))
    (others : ∀ b, b ≠ .server → db'.rows b = db.rows b) : Rooted fresh db db' ⟨fresh⟩

/-- Whatever the database blocks, the identity of the server is read or written, if this
succeeds. -/
theorem rooted_of_run_identity (h : (identity fresh).run .update db = (.ok i, db')) :
    Rooted fresh db db' i := by
  rw [run_identity] at h
  split at h
  · next hget =>
    cases h
    obtain ⟨value, hstored, hi⟩ := Identity.of_run_get (Prod.ext hget rfl)
    exact .read value i hstored hi fun _ => rfl
  · next subject hget =>
    -- that something is missing is never said of a row that cannot be read
    have hmissing : (db.rows .server).get? Identity.key = none := by
      cases hrow : (db.rows .server).get? Identity.key with
      | none => rfl
      | some value =>
        rw [Identity.run_get_of_row hrow] at hget
        exact absurd hget (ServerIdentity.decode_ne_notFound value subject)
    obtain ⟨u, db₁, hset, hrest⟩ := Access.run_bind_eq_ok.1 h
    cases hrest
    exact .created hmissing (Access.rows_of_run_put hset) (Access.of_run_put hset).1
  · cases h

/-- A row after a start is the row before it, or the new row of the server, which was missing
before. -/
theorem Rooted.get?_cases (h : Rooted fresh db db' i) (b : Bucket) (key : Bytes) :
    (db'.rows b).get? key = (db.rows b).get? key ∨
      b = .server ∧ key = Identity.key ∧ (db.rows b).get? key = none ∧
        (db'.rows b).get? key = some (ServerIdentity.encode ⟨fresh⟩) := by
  cases h with
  | read value i stored decoded same => exact .inl (by rw [same])
  | created missing written others =>
    by_cases hb : b = .server
    · subst hb
      rw [written, Rows.get?_insert]
      by_cases hkey : key = Identity.key
      · rw [if_pos hkey]
        exact .inr ⟨rfl, hkey, hkey ▸ missing, rfl⟩
      · rw [if_neg hkey]
        exact .inl rfl
    · exact .inl (by rw [others b hb])

/-- After a start the identity is stored, and can be read. -/
theorem Rooted.stored (h : Rooted fresh db db' i) :
    ∃ value, (db'.rows .server).get? Identity.key = some value ∧
      ServerIdentity.decode value = .ok i := by
  cases h with
  | read value i stored decoded same => exact ⟨value, by rw [same, stored], decoded⟩
  | created missing written others =>
    exact ⟨_, written ▸ Rows.get?_insert_self _ _ _, ServerIdentity.decode_encode _⟩

/-- Where an identity is stored, a start reads it and changes no row. -/
theorem Rooted.eq_of_stored (h : Rooted fresh db db' i) {value : Bytes} {i' : ServerIdentity}
    (hstored : (db.rows .server).get? Identity.key = some value)
    (hdecoded : ServerIdentity.decode value = .ok i') :
    i = i' ∧ ∀ b, db'.rows b = db.rows b := by
  cases h with
  | read value' i stored decoded same =>
    cases stored.symm.trans hstored
    exact ⟨Except.ok.inj (decoded.symm.trans hdecoded), same⟩
  | created missing written others => cases missing.symm.trans hstored

/-! ## Services -/

/-- A configuration of a client that a call **gives**: when the client is added or got, or in a
listing with any tools. -/
def Gives (s : Service) : Call → Config.Client → Prop
  | .add fresh name options, c => (s.add fresh name options).1 = .ok c
  | .get name, c => s.get name = .ok c
  | .infos, c => ∃ (σ : Type) (tools : Toolbox σ) (h : Host σ) (is : List ClientInfo),
    (s.infos tools h).1 = .ok is ∧ ∃ info ∈ is, info.config = c
  | .remove _, _ | .arm _, _ => False

/-- A service **carries** an identity if whatever shows the key of the server shows the one of this
identity. -/
structure Carries (i : ServerIdentity) (s : Service) : Prop where
  publicKey_eq : s.publicKey = i.privateKey.publicKey
  /-- The interface at the controller has the private key. -/
  privateKey_eq : s.controller.config.map (fun config => config.interface.privateKey) =
    some i.privateKey

/-- What comes of a start: the rows of the store and the keys of the service, both of one
identity. -/
theorem rooted_of_start {settings : ServiceSettings} {store : Store} {controller : Controller}
    (h : start settings fresh store controller = .ok s) :
    ∃ i, Rooted fresh store.committed s.store.committed i ∧ s.Carries i := by
  obtain ⟨-, -, i, peers, db, hidentity, -, rfl⟩ := start_eq_ok.1 h
  exact ⟨i, rooted_of_run_identity hidentity, rfl, rfl⟩

/-- An addition changes no rows but those of the peers, also where it fails and cannot be undone. -/
theorem rows_add_of_ne {b : Bucket} (hb : b ≠ .peers) (s : Service) (fresh : PrivateKey)
    (name : String) (options : AddOptions) :
    (s.add fresh name options).2.store.committed.rows b = s.store.committed.rows b := by
  cases hfree : s.store.free with
  | false =>
    obtain ⟨e, hadd⟩ := add_of_not_free hfree fresh name options
    rw [hadd]
  | true =>
    cases hclosed : s.store.closed with
    | true => rw [add, begin, Store.begin_update_of_closed hfree hclosed]
    | false =>
      -- either the undoing works, and the result is one of a few, or the record is left behind
      by_cases hwithdraws : s.Withdraws (.add fresh name options)
      · have hresult := add_result hfree hclosed fresh name options hwithdraws
        generalize s.add fresh name options = r at hresult ⊢
        cases hresult with
        | refused => rfl
        | undone => rfl
        | added => exact Database.rows_setRows_of_ne hb _
      · obtain ⟨a, e, c, -, -, hadd⟩ := add_stranded hfree hclosed hwithdraws
        rw [hadd]
        exact Database.rows_setRows_of_ne hb _

/-- A removal changes no rows but those of the peers, also where it fails and cannot be undone. -/
theorem rows_remove_of_ne {b : Bucket} (hb : b ≠ .peers) (s : Service) (name : String) :
    (s.remove name).2.store.committed.rows b = s.store.committed.rows b := by
  cases hfree : s.store.free with
  | false =>
    obtain ⟨e, hremove⟩ := remove_of_not_free hfree name
    rw [hremove]
  | true =>
    cases hclosed : s.store.closed with
    | true => rw [remove, begin, Store.begin_update_of_closed hfree hclosed]
    | false =>
      -- either the undoing works, and the result is one of a few, or the record is gone
      by_cases hwithdraws : s.Withdraws (.remove name)
      · have hresult := remove_result hfree hclosed name hwithdraws
        generalize s.remove name = r at hresult ⊢
        cases hresult with
        | refused => rfl
        | undone => exact Database.rows_setRows_of_ne hb _
        | removed => exact Database.rows_setRows_of_ne hb _
      · obtain ⟨e, c, -, hremove⟩ := remove_stranded hfree hclosed hwithdraws
        rw [hremove]
        exact Database.rows_setRows_of_ne hb _

/-- Calls change no rows but those of the peers, whatever the store does. -/
theorem rows_after_of_ne {b : Bucket} (hb : b ≠ .peers) (s : Service) (c : Call) :
    (s.after c).store.committed.rows b = s.store.committed.rows b := by
  cases c with
  | add fresh name options => exact rows_add_of_ne hb s fresh name options
  | remove name => exact rows_remove_of_ne hb s name
  | get | infos | arm => rfl

/-- Calls change neither the key of a service nor the one of its interface. -/
theorem Carries.after (h : s.Carries i) (c : Call) : (s.after c).Carries i where
  publicKey_eq := (s.after_keeps c).publicKey.trans h.publicKey_eq
  privateKey_eq := by
    have hframe := (s.sameFrame_after c).config
    have hkey := congrArg (Option.map Config.ServerInterface.privateKey) hframe
    rw [Option.map_map, Option.map_map] at hkey
    exact hkey.trans h.privateKey_eq

/-- Every configuration that a service gives is one of its own: it is `s.clientConfig p` for some
record. -/
theorem exists_of_gives {call : Call} {c : Config.Client} (h : s.Gives call c) :
    ∃ p, c = s.clientConfig p := by
  cases call with
  | remove | arm => exact h.elim
  | add fresh name options =>
    rcases s.add_cursor fresh name options with ⟨e, s', hadd, -⟩ | ⟨a, s', -, hadd, -⟩
    · rw [Gives, hadd] at h
      cases h
    · rw [Gives, hadd] at h
      exact ⟨_, (Except.ok.inj h).symm⟩
  | get name =>
    rw [Gives, Service.get] at h
    split at h
    · next p _ => exact ⟨p, (Except.ok.inj h).symm⟩
    · cases h
    · cases h
  -- listing gives the configurations of the peers that were read, whatever the tools report
  | infos =>
    obtain ⟨σ, tools, host, is, his, info, hinfo, rfl⟩ := h
    obtain ⟨ps, -, rfl⟩ := infos_eq_ok.1 his
    obtain ⟨p, -, rfl⟩ := List.mem_map.1 hinfo
    exact ⟨p, rfl⟩

/-- The server's key in every configuration that a service gives is the one it carries. -/
theorem Carries.of_gives (h : s.Carries i) {call : Call} {c : Config.Client}
    (hgives : s.Gives call c) : c.peer.publicKey = i.privateKey.publicKey := by
  obtain ⟨p, rfl⟩ := exists_of_gives hgives
  exact h.publicKey_eq

/-- The store after a start, also after one that fails. -/
def storeAfterStart (fresh : PrivateKey) (store : Store) : Store := (store.update (load fresh)).2

/-- A start that fails leaves the store as it was: the key that it made is gone with the
transaction. -/
theorem storeAfterStart_of_error {settings : ServiceSettings} {store : Store}
    {controller : Controller} {e : ServiceError}
    (h : start settings fresh store controller = .error e) :
    storeAfterStart fresh store = store := by
  rw [start] at h
  split at h
  · next hupdate =>
    rw [storeAfterStart, hupdate]
    exact Store.eq_of_update_eq_error hupdate
  · cases h

/-- On a free store that is open and refuses nothing, a start fails if and only if the row of the
server or one of a peer cannot be read. -/
theorem start_fails_iff {store : Store} (hsound : store.committed.Sound) (hfree : store.free = true)
    (hopen : store.closed = false) (settings : ServiceSettings) (fresh : PrivateKey)
    (controller : Controller) :
    (∃ e, start settings fresh store controller = .error e) ↔
      ¬(Identified store.committed ∧ store.peerRows.Readable) := by
  constructor
  · rintro ⟨e, he⟩ ⟨hidentified, hreadable⟩
    obtain ⟨s, hs, -⟩ :=
      exists_start hsound hfree hopen hidentified hreadable settings fresh controller
    cases he.symm.trans hs
  · intro hnot
    cases hstart : start settings fresh store controller with
    | error e => exact ⟨e, rfl⟩
    | ok s =>
      obtain ⟨_, peers, hstarted⟩ := of_start_eq_ok hstart
      obtain ⟨i, hrooted, -⟩ := rooted_of_start hstart
      refine absurd ⟨?_, Rows.readable_of_all hstarted.read⟩ hnot
      intro value hvalue
      -- a row of the server that is there was read by the start
      cases hrooted with
      | read value' i stored decoded same =>
        cases stored.symm.trans hvalue
        exact ⟨i, decoded⟩
      | created missing written others => cases missing.symm.trans hvalue

end Service

/-! ## Runs -/

/-- A store, and the service that runs on it if one was started. -/
inductive Installation where
  | idle (store : Store)
  | running (service : Service)

namespace Installation

open Service (start storeAfterStart)

/-- What can happen to a store and a service on it, with anything else that spares the rows of the
server. -/
inductive Event where
  /-- A service is started, with any settings, at any controller. -/
  | start (settings : ServiceSettings) (fresh : PrivateKey) (controller : Controller)
  | call (c : Service.Call)
  /-- Anything else that happens to the store and spares the rows of the server: the database
  refuses changes or is closed, the section is held, or there are other administrators. -/
  | elsewhere (change : Store → Store)
    (spares : ∀ s, (change s).committed.rows .server = s.committed.rows .server)

/-- The store of an installation, whether a service runs on it or not. -/
def store : Installation → Store
  | idle store => store
  | running service => service.store

/-- The rows of a bucket in the store of an installation. -/
def rows (w : Installation) (b : Bucket) : Rows := w.store.committed.rows b

/-- Something happens to the store, and a service that runs on it goes on. -/
def withStore (w : Installation) (store : Store) : Installation :=
  match w with
  | idle _ => idle store
  | running service => running { service with store := store }

/-- What an event leaves. After a start that fails, the service of before goes on. -/
def step (w : Installation) : Event → Installation
  | .start settings fresh controller =>
    match start settings fresh w.store controller with
    | .ok s => running s
    | .error _ => w.withStore (storeAfterStart fresh w.store)
  | .call c =>
    match w with
    | idle store => idle store
    | running s => running (s.after c)
  | .elsewhere change _ => w.withStore (change w.store)

/-- What events leave, one after the other. -/
def run (w : Installation) (events : List Event) : Installation := events.foldl step w

/-- The installation is **anchored**: a service runs that carries an identity, whose row stands
among certain rows of the server. -/
structure Anchored (i : ServerIdentity) (rows : Rows) (w : Installation) : Prop where
  stored : ∃ value, rows.get? Identity.key = some value ∧ ServerIdentity.decode value = .ok i
  rows_eq : w.rows .server = rows
  running : ∃ s, w = .running s ∧ s.Carries i

variable {w : Installation} {i : ServerIdentity} {rows : Rows}

/-- The store after something happened to it is the new one. -/
@[simp] theorem store_withStore (w : Installation) (store : Store) :
    (w.withStore store).store = store := by cases w <;> rfl

/-- What happens to the store while it spares the rows of the server keeps the anchor. -/
theorem Anchored.withStore (h : w.Anchored i rows) {store : Store}
    (hrows : store.committed.rows .server = w.rows .server) :
    (w.withStore store).Anchored i rows := by
  obtain ⟨s, rfl, hs⟩ := h.running
  exact ⟨h.stored, hrows.trans h.rows_eq, _, rfl, hs.publicKey_eq, hs.privateKey_eq⟩

/-- **Every event keeps the identity**, a start included: it reads the identity that is stored. -/
theorem Anchored.step (h : w.Anchored i rows) (e : Event) : (w.step e).Anchored i rows := by
  cases e with
  | start settings fresh controller =>
    cases hstart : start settings fresh w.store controller with
    | error e =>
      rw [Installation.step, hstart]
      exact h.withStore (by rw [Service.storeAfterStart_of_error hstart]; rfl)
    | ok s =>
      rw [Installation.step, hstart]
      -- the start finds the row of the identity, so it reads it and writes nothing
      obtain ⟨i', hrooted, hcarries⟩ := Service.rooted_of_start hstart
      obtain ⟨value, hvalue, hi⟩ := h.stored
      have hstored : (w.rows .server).get? Identity.key = some value := by rw [h.rows_eq, hvalue]
      obtain ⟨rfl, hrows⟩ := hrooted.eq_of_stored hstored hi
      exact ⟨h.stored, (hrows .server).trans h.rows_eq, s, rfl, hcarries⟩
  | call c =>
    obtain ⟨s, rfl, hs⟩ := h.running
    exact ⟨h.stored, (Service.rows_after_of_ne (by decide) s c).trans h.rows_eq, _, rfl,
      hs.after c⟩
  | elsewhere change spares => exact h.withStore (spares w.store)

/-- Every run keeps the identity. The induction is on the events. -/
theorem Anchored.run (h : w.Anchored i rows) (events : List Event) :
    (w.run events).Anchored i rows := by
  induction events generalizing w with
  | nil => exact h
  | cons e es ih => exact ih (h.step e)

/-- What comes of a start, and of whatever happens after it. -/
structure Startup (w : Installation) (settings : ServiceSettings) (fresh : PrivateKey)
    (controller : Controller) : Prop where
  /-- A start that fails leaves every row as it is. -/
  unchanged : ∀ e, start settings fresh w.store controller = .error e →
    ∀ b, (w.step (.start settings fresh controller)).rows b = w.rows b
  /-- It fails because the row of the server or one of a peer cannot be read, unless the store is
  held or closed or refuses changes. -/
  fails_iff : w.store.committed.Sound → w.store.free = true → w.store.closed = false →
    ((∃ e, start settings fresh w.store controller = .error e) ↔
      ¬(Service.Identified w.store.committed ∧ w.store.peerRows.Readable))
  /-- A start that succeeds adds the row of the server if that was missing, and changes no other. -/
  founded : ∀ s, start settings fresh w.store controller = .ok s → ∀ b key,
    (s.store.committed.rows b).get? key = (w.rows b).get? key ∨
      b = .server ∧ key = Identity.key ∧ (w.rows b).get? key = none ∧
        (s.store.committed.rows b).get? key = some (ServerIdentity.encode ⟨fresh⟩)
  /-- From then on, whatever happens, the rows of the server stay, and the service that runs shows
  the key in them: as its own, at its interface, and in every configuration of a client. -/
  lasting : ∀ s, start settings fresh w.store controller = .ok s → ∃ value i,
    (s.store.committed.rows .server).get? Identity.key = some value ∧
      ServerIdentity.decode value = .ok i ∧
      ∀ events, ∃ s', (w.step (.start settings fresh controller)).run events = running s' ∧
        s'.store.committed.rows .server = s.store.committed.rows .server ∧
        s'.publicKey = i.privateKey.publicKey ∧
        (∃ config, s'.controller.config = some config ∧
          config.interface.privateKey = i.privateKey) ∧
        ∀ call c, s'.Gives call c → c.peer.publicKey = i.privateKey.publicKey

/-- **The identity of the server is created once and lasts.** On every store, with whatever fails: a
start is all or nothing, the first one that succeeds creates the identity, and no call, no restart
and nothing else that spares the rows of the server makes anything show another key. -/
theorem lasting_identity (w : Installation) (settings : ServiceSettings) (fresh : PrivateKey)
    (controller : Controller) : Startup w settings fresh controller where
  unchanged e he b := by
    rw [step, he, rows, store_withStore, Service.storeAfterStart_of_error he]
    rfl
  fails_iff hsound hfree hopen :=
    Service.start_fails_iff hsound hfree hopen settings fresh controller
  founded s hs b key := by
    obtain ⟨i, hrooted, -⟩ := Service.rooted_of_start hs
    exact hrooted.get?_cases b key
  lasting s hs := by
    obtain ⟨i, hrooted, hcarries⟩ := Service.rooted_of_start hs
    obtain ⟨value, hvalue, hi⟩ := hrooted.stored
    have hanchored : (w.step (.start settings fresh controller)).Anchored i
        (s.store.committed.rows .server) := by
      rw [step, hs]
      exact ⟨⟨value, hvalue, hi⟩, rfl, s, rfl, hcarries⟩
    refine ⟨value, i, hvalue, hi, fun events => ?_⟩
    have hafter := hanchored.run events
    obtain ⟨s', hs', hcarries'⟩ := hafter.running
    have hrows := hafter.rows_eq
    rw [hs'] at hrows
    obtain ⟨config, hconfig, hkey⟩ := Option.map_eq_some_iff.1 hcarries'.privateKey_eq
    exact ⟨s', hs', hrows, hcarries'.publicKey_eq, ⟨config, hconfig, hkey⟩,
      fun call c hgives => hcarries'.of_gives hgives⟩

/-- A store with a row of a peer that is no record, on which no service starts. -/
def spoiltStore : Store :=
  { committed := Database.empty.withRows .peers (Rows.empty.insert (Peers.key "alice") []) }

/-- A service is started as in the sample. -/
def firstStart : Event := .start Service.sampleSettings ⟨.ofNat 1⟩ ⟨"wg0.conf", "wg0", none, []⟩

/-- A client is added, another one while the store is closed, and then the service is started anew,
with other settings, another fresh key and another controller. -/
def restartedEvents : List Event :=
  [.call (.add ⟨.ofNat 2⟩ "alice" {}),
    .elsewhere (fun s => { s with closed := true }) fun _ => rfl,
    .call (.add ⟨.ofNat 3⟩ "bob" {}),
    .elsewhere (fun s => { s with closed := false }) fun _ => rfl,
    .start { Service.sampleSettings with host := "other.example" } ⟨.ofNat 4⟩
      ⟨"wg1.conf", "wg1", none, []⟩]

/-- On the spoilt store no key is left behind. On an empty one the first key is the server's to the
end, also in the configuration of the client. -/
theorem lasting_identity_restarted :
    ((idle spoiltStore).step firstStart).rows .server = ∅ ∧
      ∃ s c, (idle {}).run (firstStart :: restartedEvents) = running s ∧ s.get "alice" = .ok c ∧
        c.peer.endpointHost = "other.example" ∧
        s.publicKey = (PrivateKey.mk (.ofNat 1)).publicKey ∧
        c.peer.publicKey = (PrivateKey.mk (.ofNat 1)).publicKey := by
  constructor
  · have hstartup := lasting_identity (idle spoiltStore) Service.sampleSettings ⟨.ofNat 1⟩
      ⟨"wg0.conf", "wg0", none, []⟩
    have hunreadable : ¬spoiltStore.peerRows.Readable := by
      intro hreadable
      obtain ⟨p, hp⟩ := hreadable (Peers.key "alice", []) List.mem_cons_self
      have herror : Peers.ofRow (Peers.key "alice", []) = .error (.corrupted .emptyValue) := by
        decide +kernel
      cases hp.symm.trans herror
    obtain ⟨e, he⟩ := (hstartup.fails_iff (Database.sound_empty.withRows .peers _) rfl rfl).2
      fun hboth => hunreadable hboth.2
    exact hstartup.unchanged e he .server
  · have hstartup := lasting_identity (idle {}) Service.sampleSettings ⟨.ofNat 1⟩
      ⟨"wg0.conf", "wg0", none, []⟩
    have hstarts : Service.startSample.toOption.map (fun s => s.settings.host) =
        some "vpn.example" := by decide +kernel
    obtain ⟨s, hs, -⟩ := exists_of_toOption_map hstarts
    obtain ⟨value, i, hvalue, hi, hlasts⟩ := hstartup.lasting s hs
    -- the store was empty, so the row is the new one
    rcases hstartup.founded s hs .server Identity.key with hsame | ⟨-, -, -, hnew⟩
    · cases hvalue.symm.trans hsame
    cases hvalue.symm.trans hnew
    cases (ServerIdentity.decode_encode _).symm.trans hi
    obtain ⟨s', hrun, -, hkey, -, hgives⟩ := hlasts restartedEvents
    have hget : (match (idle {}).run (firstStart :: restartedEvents) with
        | running s => (s.get "alice").toOption.map fun c => c.peer.endpointHost
        | idle _ => none) = some "other.example" := by decide +kernel
    have hrun : (idle {}).run (firstStart :: restartedEvents) = running s' := hrun
    rw [hrun] at hget
    obtain ⟨c, hc, hhost⟩ := exists_of_toOption_map hget
    exact ⟨s', c, hrun, hc, hhost, hkey, hgives (.get "alice") c hc⟩

end Installation

end WireKeeper
