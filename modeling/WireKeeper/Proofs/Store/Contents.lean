import Mathlib.Logic.Function.Basic
import WireKeeper.Proofs.Basic
import WireKeeper.Proofs.Store.Credentials
import WireKeeper.Proofs.Store.Peers
import WireKeeper.Store.Session

/-! # The buckets are finite maps

What the calls of an update do to the three buckets is what they do to three finite maps. The rows
of a bucket **mirror** a map: they stand under the keys of its records and are read as these, if the
records can be counted at all. Every call is answered from the map of its bucket and leaves the
other buckets alone.

* `Format`, `credentialFormat`, `peerFormat`: how the records of a bucket are kept;
* `Format.Stores`, `Format.Mirrors`: a row and its record, rows and their map;
* `Format.Lists`: the records of a map in the order of their keys;
* `Contents`, `Contents.after`, `Contents.Answers`: the maps, what a call makes of them, and what it
  is answered;
* `Contents.Mirrors.perform`: one call;
* `Contents.Fits.afterAll`, `Contents.Mirrors.recorded_eq`: records that can be counted remain so,
  and then the maps are what is read from the rows;
* `Contents.finite_maps`: any calls one after the other. -/

namespace WireKeeper

/-! ## Formats -/

/-- How the records of one kind are kept in rows, each under a key of its own. A record that can be
counted is read as it was written, and what is read has the key of its row. -/
structure Format (α : Type) where
  key : α → Bytes
  encode : α → Bytes
  decode : Row → Except StoreError α
  /-- The texts and lists of a record can be counted. -/
  Fits : α → Prop
  decode_encode : ∀ {a}, Fits a → decode (key a, encode a) = .ok a
  of_decode : ∀ {r a}, decode r = .ok a → key a = r.1 ∧ Fits a

/-- Credentials under their keys; the length of the comment must be below `2 ^ 32`. -/
def credentialFormat : Format Credential where
  key c := c.key
  encode c := c.encode
  decode r := Credential.decode r.1 r.2
  Fits c := (Utf8.ofString c.comment).length < twoPow 32
  decode_encode h := Credential.decode_encode h _
  of_decode h := Credential.of_decode h

/-- Peers under their names; their lists and texts must be countable. -/
def peerFormat : Format PeerIdentity where
  key p := Peers.key p.name
  encode p := p.encode
  decode := Peers.ofRow
  Fits p := p.Countable
  decode_encode h := Peers.ofRow_eq_ok.2 ⟨rfl, PeerIdentity.decode_encode h _⟩
  of_decode h :=
    have hrow := Peers.ofRow_eq_ok.1 h
    ⟨hrow.1.symm, (PeerIdentity.of_decode hrow.2).2⟩

/-- Of two options that belong together, both are there or none. -/
theorem isSome_eq_of_rel {α β : Type} {r : α → β → Prop} {x : Option α} {y : Option β}
    (h : Option.Rel r x y) : x.isSome = y.isSome := by
  cases h <;> rfl

namespace Format

variable {α : Type} {f : Format α} {m : Bytes → Option α} {rows : Rows} {a : α} {key : Bytes}

/-- A value under a key stands for a record of that key: it is read as the record, unless this
cannot be counted. -/
def Stores (f : Format α) (key value : Bytes) (a : α) : Prop :=
  f.key a = key ∧ (f.Fits a → f.decode (key, value) = .ok a)

/-- Rows stand for the records of a map: there is one under each key of the map, and no other. -/
def Mirrors (f : Format α) (m : Bytes → Option α) (rows : Rows) : Prop :=
  ∀ key, Option.Rel (f.Stores key) (rows.get? key) (m key)

/-- Every row is read as a record. -/
def Readable (f : Format α) (rows : Rows) : Prop := ∀ r ∈ rows.toList, ∃ a, f.decode r = .ok a

/-- The records that are read from rows, as a map; a row that is not read counts as none. -/
def recorded (f : Format α) (rows : Rows) (key : Bytes) : Option α :=
  (rows.get? key).bind fun value => (f.decode (key, value)).toOption

/-- The records of a map can be counted, all of them. -/
def FitsAll (f : Format α) (m : Bytes → Option α) : Prop := ∀ key a, m key = some a → f.Fits a

/-- All records of a map, each once, in the order of their keys. -/
def Lists (f : Format α) (m : Bytes → Option α) (as : List α) : Prop :=
  (as.map f.key).Pairwise (· < ·) ∧ ∀ key a, m key = some a ↔ a ∈ as ∧ f.key a = key

/-! ## Rows and maps -/

/-- Rows say whether there is a record under a key. -/
theorem Mirrors.contains (h : f.Mirrors m rows) (key : Bytes) :
    rows.contains key = (m key).isSome := isSome_eq_of_rel (h key)

/-- No rows stand for no records. -/
theorem mirrors_empty : f.Mirrors (fun _ => none) ∅ := fun _ => .none

/-- Rows that are read stand for what is read from them, `f.recorded rows`. -/
theorem Readable.mirrors (h : f.Readable rows) : f.Mirrors (f.recorded rows) rows := by
  intro key
  rw [recorded]
  cases hget : rows.get? key with
  | none => exact .none
  | some value =>
    obtain ⟨a, ha⟩ := h _ (Rows.get?_eq_some_iff.1 hget)
    rw [Option.bind_some, ha]
    exact .some ⟨(f.of_decode ha).1, fun _ => ha⟩

/-- Writing a record changes the map under its key. The record need not be countable. -/
theorem Mirrors.insert (h : f.Mirrors m rows) (a : α) :
    f.Mirrors (Function.update m (f.key a) (some a)) (rows.insert (f.key a) (f.encode a)) := by
  intro key
  rw [Rows.get?_insert, Function.update_apply]
  split
  · next hkey =>
    subst hkey
    exact .some ⟨rfl, f.decode_encode⟩
  · exact h key

/-- Removing the record under a key changes the map there, if there is one. -/
theorem Mirrors.erase (h : f.Mirrors m rows) (key : Bytes) :
    f.Mirrors (Function.update m key none) (rows.erase key) := by
  intro other
  rw [Rows.get?_erase, Function.update_apply]
  split
  · exact .none
  · exact h other

/-- The row of a record of the map, which stands under its key. -/
theorem Mirrors.of_some (h : f.Mirrors m rows) (hm : m key = some a) :
    ∃ value, rows.get? key = some value ∧ f.Stores key value a := by
  have hrel := h key
  rw [hm] at hrel
  generalize rows.get? key = value at hrel
  cases hrel with
  | some hstores => exact ⟨_, rfl, hstores⟩

/-- The record of a row, which the map has under the key of the row. -/
theorem Mirrors.of_mem (h : f.Mirrors m rows) {r : Row} (hr : r ∈ rows.toList) :
    ∃ a, m r.1 = some a ∧ f.Stores r.1 r.2 a := by
  have hrel := h r.1
  rw [Rows.get?_eq_some_iff.2 hr] at hrel
  generalize m r.1 = record at hrel
  cases hrel with
  | some hstores => exact ⟨_, rfl, hstores⟩

/-- Reading all records, if they can be counted, gives a list of those of the map. -/
theorem Mirrors.listed (h : f.Mirrors m rows) (hfits : f.FitsAll m) :
    ∃ as, rows.toList.mapM f.decode = .ok as ∧ f.Lists m as := by
  have hrow : ∀ r ∈ rows.toList, ∃ a, m r.1 = some a ∧ f.decode r = .ok a := fun r hr => by
    obtain ⟨a, hm, -, hread⟩ := h.of_mem hr
    exact ⟨a, hm, hread (hfits _ _ hm)⟩
  obtain ⟨as, has⟩ := exists_mapM_ok fun r hr => (hrow r hr).imp fun _ ha => ha.2
  refine ⟨as, has, ?_, fun key a => ?_⟩
  · -- the keys of the records are those of the rows
    rw [map_of_mapM_ok (k := Prod.fst) (fun r a ha => (f.of_decode ha).1) has]
    exact List.pairwise_map.2 rows.sorted
  -- from a record of the map to its row, and from a row to the record that is read from it
  · rw [mem_of_mapM_ok has]
    constructor
    · intro hm
      obtain ⟨value, hget, hkey, hread⟩ := h.of_some hm
      exact ⟨⟨_, Rows.get?_eq_some_iff.1 hget, hread (hfits _ _ hm)⟩, hkey⟩
    · rintro ⟨⟨r, hr, ha⟩, rfl⟩
      obtain ⟨b, hm, hb⟩ := hrow r hr
      rw [(f.of_decode ha).1, hm, Except.ok.inj (hb.symm.trans ha)]

/-- What is read from rows are the records that they stand for, if these can be counted. So the map
is determined by the rows then. -/
theorem Mirrors.recorded_eq (h : f.Mirrors m rows) (hfits : f.FitsAll m) : f.recorded rows = m := by
  funext key
  rw [recorded]
  cases hm : m key with
  | none =>
    have hnone := h.contains key
    rw [hm] at hnone
    rw [Rows.contains_eq_false.1 hnone, Option.bind_none]
  | some a =>
    obtain ⟨value, hget, -, hread⟩ := h.of_some hm
    rw [hget, Option.bind_some, hread (hfits key a hm)]
    rfl

/-- Records that were read can be counted, since counting them is part of reading. -/
theorem fitsAll_recorded (f : Format α) (rows : Rows) : f.FitsAll (f.recorded rows) := by
  intro key a hm
  obtain ⟨value, -, hm⟩ := Option.bind_eq_some_iff.1 hm
  cases hdecode : f.decode (key, value) with
  | error e =>
    rw [hdecode] at hm
    cases hm
  | ok b =>
    rw [hdecode] at hm
    cases hm
    exact (f.of_decode hdecode).2

/-- One more record that can be counted: all of them still can. -/
theorem FitsAll.insert (h : f.FitsAll m) (ha : f.Fits a) (key : Bytes) :
    f.FitsAll (Function.update m key (some a)) := by
  intro other b hb
  rw [Function.update_apply] at hb
  split at hb
  · cases hb
    exact ha
  · exact h other b hb

/-- A record less: all of the others can be counted as before. -/
theorem FitsAll.erase (h : f.FitsAll m) (key : Bytes) :
    f.FitsAll (Function.update m key none) := by
  intro other b hb
  rw [Function.update_apply] at hb
  split at hb
  · cases hb
  · exact h other b hb

end Format

/-- The bucket whose records an operation reads or changes; it has no say in the two others. -/
def Operation.bucket : Operation → Bucket
  | addCredential _ | setCredential _ | hasCredential _ | removeCredential _ | allCredentials
  | replaceCredentials _ => .credentials
  | addPeer _ | removePeer _ | hasPeer _ | getPeer _ | allPeers => .peers
  | setServer _ | getServer | hasServer => .server

/-- The records that an operation writes can be counted; only writing needs this. -/
def Operation.Fits : Operation → Prop
  | addCredential c | setCredential c => credentialFormat.Fits c
  | replaceCredentials cs => ∀ c ∈ cs, credentialFormat.Fits c
  | addPeer p => peerFormat.Fits p
  | _ => True

/-- Do one operation after the other, and go on behind one that fails. -/
def Transaction.performAll (t : Transaction) :
    List Operation → List (Except StoreError Reply) × Transaction
  | [] => ([], t)
  | op :: ops =>
    let (result, t) := t.run op.perform
    let (results, t) := t.performAll ops
    (result :: results, t)

/-- The rows of a database are read as records. Of the identity of the server, only one row is ever
looked at. -/
structure Database.Readable (db : Database) : Prop where
  credentials : credentialFormat.Readable (db.rows .credentials)
  peers : peerFormat.Readable (db.rows .peers)
  server : ∀ value, (db.rows .server).get? Identity.key = some value →
    ∃ s, ServerIdentity.decode value = .ok s

/-! ## The maps -/

/-- The records of the buckets: credentials and peers under the bytes of their keys, and the
identity of the server. -/
@[ext]
structure Contents where
  credentials : Bytes → Option Credential
  peers : Bytes → Option PeerIdentity
  server : Option ServerIdentity

namespace Contents

/-- What an operation makes of the maps. One that fails makes the same of them as none. -/
def after (m : Contents) : Operation → Contents
  | .addCredential c =>
    if (m.credentials c.key).isSome then m
    else { m with credentials := Function.update m.credentials c.key (some c) }
  | .setCredential c => { m with credentials := Function.update m.credentials c.key (some c) }
  | .removeCredential key => { m with credentials := Function.update m.credentials key none }
  | .replaceCredentials cs =>
    -- of several records with one key, the last
    { m with credentials := fun key => cs.findRev? (·.key = key) }
  | .addPeer p =>
    if (m.peers (Peers.key p.name)).isSome then m
    else { m with peers := Function.update m.peers (Peers.key p.name) (some p) }
  | .removePeer name => { m with peers := Function.update m.peers (Peers.key name) none }
  | .setServer s => { m with server := some s }
  | .hasCredential _ | .allCredentials | .hasPeer _ | .getPeer _ | .allPeers | .getServer
  | .hasServer => m

/-- What an operation is answered. Where a record is read that cannot be counted, nothing
is said. -/
def Answers (m : Contents) (result : Except StoreError Reply) : Operation → Prop
  | .addCredential c =>
    result = if (m.credentials c.key).isSome then .error (.alreadyExists .publicKey) else .ok .done
  | .setCredential _ | .removeCredential _ | .replaceCredentials _ | .setServer _ =>
    result = .ok .done
  | .hasCredential key => result = .ok (.answer (m.credentials key).isSome)
  | .allCredentials =>
    credentialFormat.FitsAll m.credentials →
      ∃ cs, result = .ok (.credentials cs) ∧ credentialFormat.Lists m.credentials cs
  | .addPeer p =>
    result = if (m.peers (Peers.key p.name)).isSome then .error (.alreadyExists (.peer p.name))
      else .ok .done
  | .removePeer name =>
    result = if (m.peers (Peers.key name)).isSome then .ok .done
      else .error (.notFound (.peer name))
  | .hasPeer name => result = .ok (.answer (m.peers (Peers.key name)).isSome)
  | .getPeer name =>
    match m.peers (Peers.key name) with
    | some p => peerFormat.Fits p → result = .ok (.peer p)
    | none => result = .error (.notFound (.peer name))
  | .allPeers =>
    peerFormat.FitsAll m.peers →
      ∃ ps, result = .ok (.peers ps) ∧ peerFormat.Lists m.peers ps
  | .getServer =>
    match m.server with
    | some s => result = .ok (.server s)
    | none => result = .error (.notFound .serverIdentity)
  | .hasServer => result = .ok (.answer m.server.isSome)

/-- What operations are answered one after the other, each from the maps that those before
it left. -/
def AnswersAll (m : Contents) : List (Except StoreError Reply) → List Operation → Prop
  | results, [] => results = []
  | results, op :: ops =>
    ∃ result rest, results = result :: rest ∧ m.Answers result op ∧ (m.after op).AnswersAll rest ops

/-- The maps that are read from a database. -/
def recorded (db : Database) : Contents where
  credentials := credentialFormat.recorded (db.rows .credentials)
  peers := peerFormat.recorded (db.rows .peers)
  server := ((db.rows .server).get? Identity.key).bind fun value =>
    (ServerIdentity.decode value).toOption

/-- A sound database whose rows stand for the records of the maps. The identity of the server must
be read, as it has no lists that could be too long. -/
structure Mirrors (m : Contents) (db : Database) : Prop where
  sound : db.Sound
  credentials : credentialFormat.Mirrors m.credentials (db.rows .credentials)
  peers : peerFormat.Mirrors m.peers (db.rows .peers)
  server : Option.Rel (fun value s => ServerIdentity.decode value = .ok s)
    ((db.rows .server).get? Identity.key) m.server

/-- The records of the maps can be counted. -/
structure Fits (m : Contents) : Prop where
  credentials : credentialFormat.FitsAll m.credentials
  peers : peerFormat.FitsAll m.peers

variable {m : Contents} {db : Database} {op : Operation} {rows : Rows}

/-! ## Records that can be counted -/

/-- Records that were read from a database can be counted. -/
theorem fits_recorded (db : Database) : (recorded db).Fits :=
  ⟨credentialFormat.fitsAll_recorded _, peerFormat.fitsAll_recorded _⟩

/-- An operation brings no records but its own, so if these can be counted, all of them
still can. -/
theorem Fits.after (h : m.Fits) (hop : op.Fits) : (m.after op).Fits := by
  cases op with
  | addCredential c =>
    rw [Contents.after]
    split
    · exact h
    · exact ⟨h.credentials.insert hop c.key, h.peers⟩
  | setCredential c => exact ⟨h.credentials.insert hop c.key, h.peers⟩
  | removeCredential key => exact ⟨h.credentials.erase key, h.peers⟩
  | replaceCredentials cs =>
    refine ⟨fun key c hc => hop c ?_, h.peers⟩
    have hfound : cs.findRev? (·.key = key) = some c := hc
    rw [List.findRev?_eq_find?_reverse] at hfound
    exact List.mem_reverse.1 (List.mem_of_find?_eq_some hfound)
  | addPeer p =>
    rw [Contents.after]
    split
    · exact h
    · exact ⟨h.credentials, h.peers.insert hop (Peers.key p.name)⟩
  | removePeer name => exact ⟨h.credentials, h.peers.erase (Peers.key name)⟩
  | setServer s => exact ⟨h.credentials, h.peers⟩
  | hasCredential | allCredentials | hasPeer | getPeer | allPeers | getServer | hasServer => exact h

/-- Operations bring no records but their own, so if these can be counted, all of them still can. -/
theorem Fits.afterAll (h : m.Fits) {ops : List Operation} (hops : ∀ op ∈ ops, op.Fits) :
    (ops.foldl Contents.after m).Fits := by
  induction ops generalizing m with
  | nil => exact h
  | cons op ops ih =>
    exact ih (h.after (hops op List.mem_cons_self)) fun o ho => hops o (List.mem_cons_of_mem op ho)

/-! ## Rows and maps -/

/-- What is read from a sound database is what its rows stand for, if all of them are read. -/
theorem mirrors_recorded (hsound : db.Sound) (hread : db.Readable) : (recorded db).Mirrors db where
  sound := hsound
  credentials := hread.credentials.mirrors
  peers := hread.peers.mirrors
  server := by
    rw [recorded]
    cases hget : (db.rows .server).get? Identity.key with
    | none => exact .none
    | some value =>
      obtain ⟨s, hs⟩ := hread.server value hget
      rw [Option.bind_some, hs]
      exact .some hs

/-- What is read from a database are the records of the maps, if these can be counted. -/
theorem Mirrors.recorded_eq (h : m.Mirrors db) (hfits : m.Fits) : recorded db = m := by
  have hserver : (recorded db).server = m.server := by
    have hrel := h.server
    rw [recorded]
    generalize (db.rows .server).get? Identity.key = value at hrel
    generalize m.server = s at hrel
    cases hrel with
    | none => rfl
    | some hs =>
      rw [Option.bind_some, hs]
      rfl
  exact Contents.ext (h.credentials.recorded_eq hfits.credentials)
    (h.peers.recorded_eq hfits.peers) hserver

/-- New rows of credentials, which stand for a new map of these; the other two maps stay. -/
theorem Mirrors.withCredentials (h : m.Mirrors db) {credentials : Bytes → Option Credential}
    (hrows : credentialFormat.Mirrors credentials rows) :
    { m with credentials }.Mirrors (db.withRows .credentials rows) where
  sound := h.sound.withRows .credentials rows
  credentials := by rwa [Database.rows_withRows, if_pos rfl]
  peers := h.peers
  server := h.server

/-- New rows of peers, which stand for a new map of these; the other two maps stay. -/
theorem Mirrors.withPeers (h : m.Mirrors db) {peers : Bytes → Option PeerIdentity}
    (hrows : peerFormat.Mirrors peers rows) :
    { m with peers }.Mirrors (db.withRows .peers rows) where
  sound := h.sound.withRows .peers rows
  credentials := h.credentials
  peers := by rwa [Database.rows_withRows, if_pos rfl]
  server := h.server

/-- A new identity of the server, which is read from its row; the maps of the others stay. -/
theorem Mirrors.withServer (h : m.Mirrors db) (s : ServerIdentity) :
    { m with server := some s }.Mirrors
      (db.withRows .server ((db.rows .server).insert Identity.key s.encode)) where
  sound := h.sound.withRows .server _
  credentials := h.credentials
  peers := h.peers
  server := by
    rw [Database.rows_withRows, if_pos rfl, Rows.get?_insert_self]
    exact .some s.decode_encode

/-- Writing credentials one after the other: of several with one key, the last stays. -/
theorem mirrors_insertAll (cs : List Credential) :
    credentialFormat.Mirrors (fun key => cs.findRev? (·.key = key))
      (Credentials.insertAll cs ∅) := by
  induction cs using List.reverseRecOn with
  | nil => exact Format.mirrors_empty
  | append_singleton cs c ih =>
    have hlast : (fun key => (cs ++ [c]).findRev? (·.key = key)) =
        Function.update (fun key => cs.findRev? (·.key = key)) c.key (some c) := by
      funext key
      rw [findRev?_concat, Function.update_apply]
      exact if_congr (decide_eq_true_iff.trans eq_comm) rfl rfl
    rw [hlast, Credentials.insertAll, List.foldl_append]
    exact ih.insert c

/-! ## Operations -/

/-- An operation gave a result and left a database: it was answered from the maps, the rows stand
for what it makes of the maps, other buckets are as they were, and so is everything if it failed. -/
structure Served (m : Contents) (op : Operation) (db : Database)
    (out : Except StoreError Reply × Database) : Prop where
  answers : m.Answers out.1 op
  mirrors : (m.after op).Mirrors out.2
  others : ∀ b, b ≠ op.bucket → out.2.table b = db.table b
  kept : ∀ e, out.1 = .error e → out.2 = db

/-- An operation that changes nothing is served if its answer is the one of the maps. -/
theorem Mirrors.served_unchanged (h : m.Mirrors db) {result : Except StoreError Reply}
    (hanswer : m.Answers result op) (hafter : m.after op = m) : m.Served op db (result, db) where
  answers := hanswer
  mirrors := hafter.symm ▸ h
  others _ _ := rfl
  kept _ _ := rfl

/-- An operation that writes the rows of its bucket is served if these stand for what it makes of
the maps. -/
theorem served_withRows (hanswer : m.Answers (.ok .done) op)
    (h : (m.after op).Mirrors (db.withRows op.bucket rows)) :
    m.Served op db (.ok .done, db.withRows op.bucket rows) where
  answers := hanswer
  mirrors := h
  others b hb := (Database.table_setTable db op.bucket b _).trans (if_neg hb)
  kept _ he := nomatch he

/-- Doing something that gives nothing, as an operation: its reply is that it was done. -/
theorem run_done (a : Access Unit) :
    (do a; pure Reply.done : Access Reply).run .update db =
      ((a.run .update db).1.map fun _ => Reply.done, (a.run .update db).2) :=
  Access.run_map a fun _ => Reply.done

/-- Adding a credential is served: a key that is taken is refused. -/
theorem Mirrors.addCredential (h : m.Mirrors db) (c : Credential) :
    m.Served (.addCredential c) db ((Operation.addCredential c).perform.run .update db) := by
  have hcontains := h.credentials.contains c.key
  rw [Operation.perform, run_done, Credentials.run_add h.sound]
  by_cases hthere : (m.credentials c.key).isSome = true
  · rw [if_pos (hcontains.trans hthere)]
    exact h.served_unchanged (if_pos hthere).symm (if_pos hthere)
  · rw [if_neg (hcontains ▸ hthere)]
    refine served_withRows (if_neg hthere).symm ?_
    rw [after, if_neg hthere]
    exact h.withCredentials (h.credentials.insert c)

/-- Writing a credential is served, whether its key is taken or not. -/
theorem Mirrors.setCredential (h : m.Mirrors db) (c : Credential) :
    m.Served (.setCredential c) db ((Operation.setCredential c).perform.run .update db) := by
  rw [Operation.perform, run_done, Credentials.run_set h.sound]
  exact served_withRows rfl (h.withCredentials (h.credentials.insert c))

/-- Looking for a credential is served. -/
theorem Mirrors.hasCredential (h : m.Mirrors db) (key : Bytes) :
    m.Served (.hasCredential key) db ((Operation.hasCredential key).perform.run .update db) := by
  rw [Operation.perform, Access.run_map, Credentials.run_contains h.sound,
    h.credentials.contains key]
  exact h.served_unchanged rfl rfl

/-- Removing a credential is served, whether it is there or not. -/
theorem Mirrors.removeCredential (h : m.Mirrors db) (key : Bytes) :
    m.Served (.removeCredential key) db
      ((Operation.removeCredential key).perform.run .update db) := by
  rw [Operation.perform, run_done, Credentials.run_remove h.sound]
  exact served_withRows rfl (h.withCredentials (h.credentials.erase key))

/-- Reading all credentials is served, if they can be counted. -/
theorem Mirrors.allCredentials (h : m.Mirrors db) :
    m.Served .allCredentials db (Operation.allCredentials.perform.run .update db) := by
  rw [Operation.perform, Access.run_map, Credentials.run_all h.sound]
  refine h.served_unchanged (fun hfits => ?_) rfl
  obtain ⟨cs, hcs, hlists⟩ := h.credentials.listed hfits
  exact ⟨cs, congrArg (Except.map Reply.credentials) hcs, hlists⟩

/-- Replacing all credentials is served: of several new ones with one key, the last stays. -/
theorem Mirrors.replaceCredentials (h : m.Mirrors db) (cs : List Credential) :
    m.Served (.replaceCredentials cs) db
      ((Operation.replaceCredentials cs).perform.run .update db) := by
  rw [Operation.perform, run_done, Credentials.run_replaceAll h.sound]
  exact served_withRows rfl (h.withCredentials (mirrors_insertAll cs))

/-- Adding a peer is served: a name that is taken is refused. -/
theorem Mirrors.addPeer (h : m.Mirrors db) (p : PeerIdentity) :
    m.Served (.addPeer p) db ((Operation.addPeer p).perform.run .update db) := by
  have hcontains := h.peers.contains (Peers.key p.name)
  rw [Operation.perform, run_done]
  by_cases hthere : (m.peers (Peers.key p.name)).isSome = true
  · rw [Peers.run_add_of_contains h.sound (hcontains.trans hthere)]
    exact h.served_unchanged (if_pos hthere).symm (if_pos hthere)
  · have hnew := hcontains.trans (Bool.eq_false_of_not_eq_true hthere)
    rw [Peers.run_add h.sound (Rows.contains_eq_false.1 hnew)]
    refine served_withRows (if_neg hthere).symm ?_
    rw [after, if_neg hthere]
    exact h.withPeers (h.peers.insert p)

/-- Removing a peer is served: a name that is not there is refused. -/
theorem Mirrors.removePeer (h : m.Mirrors db) (name : String) :
    m.Served (.removePeer name) db ((Operation.removePeer name).perform.run .update db) := by
  have hcontains := h.peers.contains (Peers.key name)
  rw [Operation.perform, run_done]
  cases hm : m.peers (Peers.key name) with
  | none =>
    rw [hm] at hcontains
    rw [Peers.run_remove_of_not_contains h.sound hcontains]
    refine h.served_unchanged ?_ ?_
    · rw [Answers, hm]
      rfl
    · -- taking away what is not there leaves the map as it is
      rw [after, ← hm, Function.update_eq_self]
  | some p =>
    obtain ⟨value, hget, -⟩ := h.peers.of_some hm
    rw [Peers.run_remove h.sound hget]
    refine served_withRows ?_ (h.withPeers (h.peers.erase (Peers.key name)))
    rw [Answers, hm]
    rfl

/-- Looking for a peer is served. -/
theorem Mirrors.hasPeer (h : m.Mirrors db) (name : String) :
    m.Served (.hasPeer name) db ((Operation.hasPeer name).perform.run .update db) := by
  rw [Operation.perform, Access.run_map, Peers.run_contains h.sound, h.peers.contains]
  exact h.served_unchanged rfl rfl

/-- Reading a peer is served, if it can be counted: a name that is not there is refused. -/
theorem Mirrors.getPeer (h : m.Mirrors db) (name : String) :
    m.Served (.getPeer name) db ((Operation.getPeer name).perform.run .update db) := by
  rw [Operation.perform, Access.run_map, Peers.run_get h.sound]
  refine h.served_unchanged ?_ rfl
  rw [Answers]
  cases hm : m.peers (Peers.key name) with
  | none =>
    have hnone := h.peers.contains (Peers.key name)
    rw [hm] at hnone
    rw [Rows.contains_eq_false.1 hnone]
    rfl
  | some p =>
    obtain ⟨value, hget, hkey, hread⟩ := h.peers.of_some hm
    intro hfits
    obtain ⟨-, hdecode⟩ := Peers.ofRow_eq_ok.1 (hread hfits)
    cases Peers.key_inj.1 hkey
    rw [hget]
    exact congrArg (Except.map Reply.peer) hdecode

/-- Reading all peers is served, if they can be counted. -/
theorem Mirrors.allPeers (h : m.Mirrors db) :
    m.Served .allPeers db (Operation.allPeers.perform.run .update db) := by
  rw [Operation.perform, Access.run_map, Peers.run_all h.sound]
  refine h.served_unchanged (fun hfits => ?_) rfl
  obtain ⟨ps, hps, hlists⟩ := h.peers.listed hfits
  exact ⟨ps, congrArg (Except.map Reply.peers) hps, hlists⟩

/-- Writing the identity of the server is served, whether there is one or not. -/
theorem Mirrors.setServer (h : m.Mirrors db) (s : ServerIdentity) :
    m.Served (.setServer s) db ((Operation.setServer s).perform.run .update db) := by
  rw [Operation.perform, run_done, Identity.run_set h.sound]
  exact served_withRows rfl (h.withServer s)

/-- Reading the identity of the server is served: if there is none, it is refused. -/
theorem Mirrors.getServer (h : m.Mirrors db) :
    m.Served .getServer db (Operation.getServer.perform.run .update db) := by
  have hserver := h.server
  rw [Operation.perform, Access.run_map, Identity.run_get h.sound]
  refine h.served_unchanged ?_ rfl
  rw [Answers]
  generalize (db.rows .server).get? Identity.key = value at hserver
  generalize m.server = s at hserver
  cases hserver with
  | none => rfl
  | some hs => exact congrArg (Except.map Reply.server) hs

/-- Looking for the identity of the server is served. -/
theorem Mirrors.hasServer (h : m.Mirrors db) :
    m.Served .hasServer db (Operation.hasServer.perform.run .update db) := by
  rw [Operation.perform, Access.run_map, Identity.run_present h.sound, Rows.contains,
    isSome_eq_of_rel h.server]
  exact h.served_unchanged rfl rfl

/-- One operation on rows that stand for the records of maps is served: the step of every run. -/
theorem Mirrors.perform (h : m.Mirrors db) (op : Operation) :
    m.Served op db (op.perform.run .update db) := by
  cases op with
  | addCredential c => exact h.addCredential c
  | setCredential c => exact h.setCredential c
  | hasCredential key => exact h.hasCredential key
  | removeCredential key => exact h.removeCredential key
  | allCredentials => exact h.allCredentials
  | replaceCredentials cs => exact h.replaceCredentials cs
  | addPeer p => exact h.addPeer p
  | removePeer name => exact h.removePeer name
  | hasPeer name => exact h.hasPeer name
  | getPeer name => exact h.getPeer name
  | allPeers => exact h.allPeers
  | setServer s => exact h.setServer s
  | getServer => exact h.getServer
  | hasServer => exact h.hasServer

/-! ## Runs -/

/-- Operations one after the other are answered from the maps, and the rows stand for what they make
of these. The transaction remains an update. -/
theorem Mirrors.performAll {t : Transaction} (h : m.Mirrors t.work) (hmode : t.mode = .update)
    (ops : List Operation) :
    m.AnswersAll (t.performAll ops).1 ops ∧ (t.performAll ops).2.mode = .update ∧
      (ops.foldl after m).Mirrors (t.performAll ops).2.work := by
  induction ops generalizing m t with
  | nil => exact ⟨rfl, hmode, h⟩
  | cons op ops ih =>
    -- what the operation leaves stands for the maps it makes, from which the others are answered
    have hserved := h.perform op
    rw [← hmode] at hserved
    obtain ⟨hanswers, hrest⟩ := ih (t := (t.run op.perform).2) hserved.mirrors hmode
    exact ⟨⟨_, _, rfl, hserved.answers, hanswers⟩, hrest⟩

/-- **The buckets are finite maps.** In an update on a sound database whose rows are read, whatever
operations are done one after the other: they are answered from the maps that were read at the
beginning, as the operations change these, and the rows stand for what they make of the maps. If the
records that were written can be counted, all the records of the maps can, and they are what is read
from the database. At no point does an operation change another bucket than its own, or anything at
all if it fails. -/
theorem finite_maps {t : Transaction} (hmode : t.mode = .update) (hsound : t.work.Sound)
    (hread : t.work.Readable) (ops : List Operation) :
    (recorded t.work).AnswersAll (t.performAll ops).1 ops ∧
      (ops.foldl after (recorded t.work)).Mirrors (t.performAll ops).2.work ∧
      ((∀ op ∈ ops, op.Fits) → (ops.foldl after (recorded t.work)).Fits ∧
        recorded (t.performAll ops).2.work = ops.foldl after (recorded t.work)) ∧
      ∀ op : Operation,
        (∀ b, b ≠ op.bucket → ((t.performAll ops).2.run op.perform).2.work.table b =
          (t.performAll ops).2.work.table b) ∧
        ∀ e, ((t.performAll ops).2.run op.perform).1 = .error e →
          ((t.performAll ops).2.run op.perform).2 = (t.performAll ops).2 := by
  obtain ⟨hanswers, hmode, h⟩ := (mirrors_recorded hsound hread).performAll hmode ops
  refine ⟨hanswers, h, fun hops => ?_, fun op => ?_⟩
  · have hfits := (fits_recorded t.work).afterAll hops
    exact ⟨hfits, h.recorded_eq hfits⟩
  · have hserved := h.perform op
    rw [← hmode] at hserved
    exact ⟨hserved.others, fun e he => congrArg (Transaction.mk _) (hserved.kept e he)⟩

/-- An update on a database with a credential and a peer, but no identity. -/
def startedUpdate : Transaction where
  mode := .update
  work := {
    credentials := some ⟨(∅ : Rows).insert [0x62] (Credential.mk [0x62] "first").encode, []⟩
    peers := some ⟨(∅ : Rows).insert (Peers.key "zoë") Record.mappedPeer.encode, []⟩ }

/-- Records under keys that are taken, keys that are not there, and a list that repeats a key behind
its own extension. -/
def mixedOperations : List Operation :=
  [.addCredential ⟨[0x62], "second"⟩, .removeCredential [9], .allCredentials,
    .replaceCredentials [⟨[0x62, 0], "x"⟩, ⟨[0x63], ""⟩, ⟨[0x62], "y"⟩, ⟨[0x62, 0], "z"⟩],
    .allCredentials, .addPeer { Record.mappedPeer with dns := [] }, .removePeer "ghost",
    .getPeer "zoë", .getServer, .setServer ⟨⟨.ofNat 7⟩⟩, .setServer ⟨⟨.ofNat 8⟩⟩, .getServer]

/-- They are answered from the maps: what is there stays, the last record of a key counts, and a key
comes before its extension. -/
theorem finite_maps_mixed :
    (recorded startedUpdate.work).AnswersAll (startedUpdate.performAll mixedOperations).1
        mixedOperations ∧
      (startedUpdate.performAll mixedOperations).1 =
        [.error (.alreadyExists .publicKey), .ok .done, .ok (.credentials [⟨[0x62], "first"⟩]),
          .ok .done,
          .ok (.credentials [⟨[0x62], "y"⟩, ⟨[0x62, 0], "z"⟩, ⟨[0x63], ""⟩]),
          .error (.alreadyExists (.peer "zoë")), .error (.notFound (.peer "ghost")),
          .ok (.peer Record.mappedPeer), .error (.notFound .serverIdentity), .ok .done, .ok .done,
          .ok (.server ⟨⟨.ofNat 8⟩⟩)] := by
  have hsound : startedUpdate.work.Sound := fun b => by
    cases b <;> exact ⟨_, rfl, rfl⟩
  have hread : startedUpdate.work.Readable :=
    { credentials := fun r hr => by
        cases List.mem_singleton.1 hr
        exact ⟨⟨[0x62], "first"⟩, Credential.decode_encode (by decide +kernel) [0x62]⟩
      peers := fun r hr => by
        cases List.mem_singleton.1 hr
        exact ⟨Record.mappedPeer,
          peerFormat.decode_encode (a := Record.mappedPeer) ⟨by decide, by decide⟩⟩
      server := fun value hget => by
        rw [show startedUpdate.work.rows .server = ∅ from rfl, Rows.get?_empty] at hget
        cases hget }
  exact ⟨(finite_maps rfl hsound hread mixedOperations).1, by decide +kernel⟩

end Contents

end WireKeeper
