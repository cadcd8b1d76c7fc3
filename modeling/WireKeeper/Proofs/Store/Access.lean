import WireKeeper.Proofs.Store.Rows
import WireKeeper.Store.Records

/-! # Accesses to a sound database

A sound database is its rows: every bucket is there and blocks nothing. On such a database each
access either gives its result or refuses for a reason of its own, and the only thing it changes are
the rows of one bucket.

* `run_bind`, `run_tryCatch`: what an access of two steps does;
* `run_bind_snd`: two steps that change nothing;
* `record`, `run_record`: the one record under a key;
* `Peers.run_add`, `Peers.run_remove`, `Peers.run_get`, `Peers.run_all`: the accesses to peers;
* `Identity.run_set`, `Identity.run_get`: the accesses to the identity of the server. -/

namespace WireKeeper

namespace Database

/-! ## The rows of a sound database -/

/-- Replace the rows of a bucket, which is there and blocks nothing afterwards. -/
def withRows (db : Database) (b : Bucket) (rows : Rows) : Database :=
  db.setTable b (some ⟨rows, []⟩)

/-- The rows that were put into a bucket are there; the other buckets keep theirs. -/
theorem rows_withRows (db : Database) (b c : Bucket) (rows : Rows) :
    (db.withRows b rows).rows c = if c = b then rows else db.rows c := by
  rw [Database.rows, withRows, table_setTable]
  by_cases h : c = b
  · rw [if_pos h, if_pos h]
  · rw [if_neg h, if_neg h]
    rfl

/-- The tables of a sound database: each is there, has the rows of its bucket and blocks nothing. -/
theorem Sound.table {db : Database} (h : db.Sound) (b : Bucket) :
    db.table b = some ⟨db.rows b, []⟩ := by
  obtain ⟨⟨rows, blocked⟩, ht, hblocked⟩ := h b
  rw [Database.rows, ht]
  cases hblocked
  rfl

/-- New rows in any bucket keep a database sound. -/
theorem Sound.withRows {db : Database} (h : db.Sound) (b : Bucket) (rows : Rows) :
    (db.withRows b rows).Sound := by
  intro c
  rw [Database.withRows, table_setTable]
  split
  · exact ⟨_, rfl, rfl⟩
  · exact h c

/-- The rows that were put into a bucket last count. -/
theorem withRows_withRows (db : Database) (b : Bucket) (rows rows' : Rows) :
    (db.withRows b rows).withRows b rows' = db.withRows b rows' := by
  cases b <;> rfl

/-- Its own rows leave a sound database as it is: `db.withRows b (db.rows b) = db`. -/
theorem Sound.withRows_rows {db : Database} (h : db.Sound) (b : Bucket) :
    db.withRows b (db.rows b) = db := by
  rw [Database.withRows, ← h.table b]
  cases b <;> rfl

end Database

namespace Access

/-! ## Steps -/

variable {α β : Type} {mode : Mode} {db db' : Database}

/-- Two steps: the second works on what the first left. If the first fails, its error and what it
left are those of both. -/
theorem run_bind (a : Access α) (f : α → Access β) :
    (a >>= f).run mode db =
      match a.run mode db with
      | (.ok x, db) => (f x).run mode db
      | (.error e, db) => (.error e, db) := by
  -- below the mode, an access is a state with a result or an error
  show (ExceptT.bindCont (fun x => f x mode) (a.run mode db).1 : StateM Database (Except _ β))
    (a.run mode db).2 = _
  cases a.run mode db with
  | mk r db' => cases r <;> rfl

/-- A step whose errors are caught: the handler works on what the step left, and nothing is taken
back. -/
theorem run_tryCatch (a : Access α) (f : StoreError → Access α) :
    (tryCatch a f).run mode db =
      match a.run mode db with
      | (.ok x, db) => (.ok x, db)
      | (.error e, db) => (f e).run mode db := by
  show (ExceptT.tryCatch (a mode) fun e => f e mode) db = _
  -- the handler is bound to the state, not to the result
  unfold Access.run ExceptT.run ExceptT.tryCatch ExceptT.mk
  show StateT.bind (m := Id) _ _ _ = _
  unfold StateT.bind
  cases a mode db with
  | mk r db' => cases r <;> rfl

/-- An access goes on after a step that succeeds, with its result and on what it left. -/
theorem run_bind_ok {a : Access α} {f : α → Access β} {x : α} (h : a.run mode db = (.ok x, db')) :
    (a >>= f).run mode db = (f x).run mode db' := by
  rw [run_bind, h]

/-- Two steps change nothing if the first does not, and the second does not either, whatever the
first one gives to it. A failure of one of them is no exception. -/
theorem run_bind_snd {a : Access α} {f : α → Access β} (ha : (a.run mode db).2 = db)
    (hf : ∀ x, ((f x).run mode db).2 = db) : ((a >>= f).run mode db).2 = db := by
  rw [run_bind]
  cases hrun : a.run mode db with
  | mk r db' =>
    rw [hrun] at ha
    obtain rfl : db' = db := ha
    cases r with
    | ok x => exact hf x
    | error e => rfl

/-- Two steps succeed if and only if the first does and the second does on what that left. -/
theorem run_bind_eq_ok {a : Access α} {f : α → Access β} {y : β} :
    (a >>= f).run mode db = (.ok y, db') ↔
      ∃ x db₁, a.run mode db = (.ok x, db₁) ∧ (f x).run mode db₁ = (.ok y, db') := by
  rw [run_bind]
  constructor
  · intro h
    split at h
    · next x db₁ hx => exact ⟨x, db₁, hx, h⟩
    · cases h
  · rintro ⟨x, db₁, hx, h⟩
    rw [hx]
    exact h

/-- A result that is turned into another one, which changes nothing else. -/
theorem run_map (a : Access α) (g : α → β) :
    (g <$> a).run mode db = ((a.run mode db).1.map g, (a.run mode db).2) := by
  -- mapping is binding to a constant access
  refine (run_bind a fun x => pure (g x)).trans ?_
  rcases a.run mode db with ⟨r | r, db'⟩ <;> rfl

/-- Looking at the whole database changes nothing. -/
theorem run_read : (getThe Database : Access Database).run mode db = (.ok db, db) := rfl

/-- What needs no database changes none. -/
theorem run_liftM (r : Except StoreError α) : (liftM r : Access α).run mode db = (r, db) := by
  cases r <;> rfl

/-- An update may change rows; only a view may not. -/
theorem run_requireUpdate : requireUpdate.run .update db = (.ok (), db) := rfl

/-- A table that was found is the one of the database, and finding it changes nothing. -/
theorem of_run_table {b : Bucket} {t : Table} (h : (table b).run mode db = (.ok t, db')) :
    db' = db ∧ db.table b = some t := by
  rw [table, run_bind_ok run_read] at h
  split at h
  · next ht =>
    cases h
    exact ⟨rfl, ht⟩
  · cases h

/-- The table of a sound database is found, whichever bucket it is of. -/
theorem run_table (h : db.Sound) (b : Bucket) :
    (table b).run mode db = (.ok ⟨db.rows b, []⟩, db) := by
  refine (run_bind_ok run_read).trans ?_
  rw [h.table b]
  rfl

/-! ## Single rows -/

/-- Looking up a row of a sound database. -/
theorem run_get? (h : db.Sound) (b : Bucket) (key : Bytes) :
    (get? b key).run mode db = (.ok ((db.rows b).get? key), db) :=
  run_bind_ok (run_table h b)

/-- Look up the one record under a key, and read it; `missing` is the error where there is none. A
peer and the identity of the server are both read so. -/
def record (b : Bucket) (key : Bytes) (decode : Bytes → Except StoreError α)
    (missing : StoreError) : Access α := do
  match ← get? b key with
  | some value => liftM (decode value)
  | none => throw missing

variable {decode : Bytes → Except StoreError α} {missing : StoreError}

/-- Reading one record of a sound database: its row must be there and be read. -/
theorem run_record (h : db.Sound) (b : Bucket) (key : Bytes) :
    (record b key decode missing).run mode db =
      (match (db.rows b).get? key with
        | some value => decode value
        | none => .error missing, db) := by
  refine (run_bind_ok (run_get? h b key)).trans ?_
  cases (db.rows b).get? key with
  | none => rfl
  | some value => exact run_liftM _

/-- Looking for a row of a sound database. -/
theorem run_contains (h : db.Sound) (b : Bucket) (key : Bytes) :
    (contains b key).run mode db = (.ok ((db.rows b).contains key), db) :=
  run_bind_ok (run_table h b)

/-- Listing the rows of a sound database, in the order of their keys. -/
theorem run_all (h : db.Sound) (b : Bucket) :
    (all b).run mode db = (.ok (db.rows b).toList, db) :=
  run_bind_ok (run_table h b)

/-- A row is written under a new key only. A key that is taken is reported and keeps its row. -/
theorem run_insertNew (h : db.Sound) (b : Bucket) (key value : Bytes) :
    (insertNew b key value).run .update db =
      if (db.rows b).contains key then (.ok false, db)
      else (.ok true, db.withRows b ((db.rows b).insert key value)) := by
  refine (run_bind_ok run_requireUpdate).trans ((run_bind_ok (run_table h b)).trans ?_)
  show Access.run (if (db.rows b).contains key then _ else _) _ _ = _
  split <;> rfl

/-- A row is written, in place of the one under its key if there is one. -/
theorem run_put (h : db.Sound) (b : Bucket) (key value : Bytes) :
    (put b key value).run .update db =
      (.ok (), db.withRows b ((db.rows b).insert key value)) := by
  refine (run_bind_ok run_requireUpdate).trans ?_
  exact run_bind_ok (run_table h b)

/-- A row is removed if it is there, and it is reported whether it was. -/
theorem run_erase (h : db.Sound) (b : Bucket) (key : Bytes) :
    (erase b key).run .update db =
      if (db.rows b).contains key then (.ok true, db.withRows b ((db.rows b).erase key))
      else (.ok false, db) := by
  refine (run_bind_ok run_requireUpdate).trans ((run_bind_ok (run_table h b)).trans ?_)
  show Access.run (if (db.rows b).contains key then _ else _) _ _ = _
  split <;> rfl

/-- All rows of a bucket are removed. -/
theorem run_clear (h : db.Sound) (b : Bucket) :
    (clear b).run .update db = (.ok (), db.withRows b ∅) := by
  refine (run_bind_ok run_requireUpdate).trans ?_
  exact run_bind_ok (run_table h b)

end Access

/-! ## Any database

On a database that may refuse, an access that succeeds has read the rows, and one that changes a
bucket leaves the others alone. -/

namespace Access

variable {mode : Mode} {db db' : Database} {b : Bucket}

/-- Finding a table changes nothing, whether there is one or not. -/
theorem run_table_snd : ((table b).run mode db).2 = db := by
  rw [table, run_bind_ok run_read]
  cases db.table b <;> rfl

/-- Looking up a row changes nothing, whether the bucket is there or not. -/
theorem run_get?_snd {key : Bytes} : ((get? b key).run mode db).2 = db :=
  run_bind_snd run_table_snd fun _ => rfl

/-- What was looked up is in the rows, in any database in which the look-up succeeds. -/
theorem of_run_get? {key : Bytes} {o : Option Bytes}
    (h : (get? b key).run mode db = (.ok o, db')) : db' = db ∧ o = (db.rows b).get? key := by
  rw [get?] at h
  obtain ⟨t, db₁, ht, hrest⟩ := run_bind_eq_ok.1 h
  obtain ⟨rfl, ht⟩ := of_run_table ht
  cases hrest
  rw [Database.rows, ht]
  exact ⟨rfl, rfl⟩

/-- Reading one record changes nothing, even if it fails. -/
theorem run_record_snd {key : Bytes} {decode : Bytes → Except StoreError α}
    {missing : StoreError} : ((record b key decode missing).run mode db).2 = db := by
  refine run_bind_snd run_get?_snd fun o => ?_
  cases o with
  | none => rfl
  | some value => exact congrArg Prod.snd (run_liftM _)

/-- A record that was read was read from the row under its key, in any database. -/
theorem of_run_record {key : Bytes} {decode : Bytes → Except StoreError α} {missing : StoreError}
    {a : α} (h : (record b key decode missing).run mode db = (.ok a, db')) :
    ∃ value, (db.rows b).get? key = some value ∧ decode value = .ok a := by
  obtain ⟨o, db₁, ho, hrest⟩ := run_bind_eq_ok.1 h
  obtain ⟨rfl, rfl⟩ := of_run_get? ho
  split at hrest
  · next value hvalue =>
    rw [run_liftM] at hrest
    exact ⟨value, hvalue, (Prod.mk.inj hrest).1⟩
  · cases hrest

/-- What was listed are the rows, in any database in which listing them succeeds. -/
theorem of_run_all {rows : List Row} (h : (all b).run mode db = (.ok rows, db')) :
    db' = db ∧ rows = (db.rows b).toList := by
  rw [all] at h
  obtain ⟨t, db₁, ht, hrest⟩ := run_bind_eq_ok.1 h
  obtain ⟨rfl, ht⟩ := of_run_table ht
  cases hrest
  rw [Database.rows, ht]
  exact ⟨rfl, rfl⟩

/-- Writing into a bucket leaves the others alone, and a sound database sound. Nothing is asked of
the database here. -/
theorem of_run_put {key value : Bytes} {u : Unit}
    (h : (put b key value).run mode db = (.ok u, db')) :
    (∀ c, c ≠ b → db'.rows c = db.rows c) ∧ (db.Sound → db'.Sound) := by
  rw [put] at h
  obtain ⟨_, db₁, hmode, htable⟩ := run_bind_eq_ok.1 h
  -- only an update gets past the first step, which changes nothing
  have hdb : db₁ = db := by
    cases mode <;> cases hmode
    rfl
  subst hdb
  obtain ⟨t, db₂, ht, hrest⟩ := run_bind_eq_ok.1 htable
  obtain ⟨rfl, ht⟩ := of_run_table ht
  split at hrest
  · cases hrest
  · cases hrest
    constructor
    · intro c hc
      rw [Database.rows, Database.table_setTable, if_neg hc]
      rfl
    · intro hsound
      obtain rfl := Option.some.inj (ht.symm.trans (hsound.table b))
      exact hsound.withRows b _

end Access

/-! ## Peers -/

namespace Peers

variable {mode : Mode} {db db' : Database}

/-- Reading a peer changes nothing, even if it fails. -/
theorem run_get_snd {name : String} : ((get name).run mode db).2 = db := Access.run_record_snd

/-- A peer that was read was read from the row under its name. -/
theorem of_run_get {name : String} {p : PeerIdentity} (h : (get name).run mode db = (.ok p, db')) :
    ∃ value, (db.rows .peers).get? (key name) = some value ∧
      PeerIdentity.decode name value = .ok p := Access.of_run_record h

/-- Peers that were listed were read from all of the rows. -/
theorem of_run_all {ps : List PeerIdentity} (h : Peers.all.run mode db = (.ok ps, db')) :
    db' = db ∧ (db.rows .peers).toList.mapM ofRow = .ok ps := by
  rw [Peers.all] at h
  obtain ⟨rows, db₁, hrows, hrest⟩ := Access.run_bind_eq_ok.1 h
  obtain ⟨rfl, rfl⟩ := Access.of_run_all hrows
  rw [Access.run_liftM] at hrest
  obtain ⟨hps, rfl⟩ := Prod.mk.inj hrest
  exact ⟨rfl, hps⟩

/-- Looking for a peer is looking for a row under its name. -/
theorem run_contains (h : db.Sound) (name : String) :
    (contains name).run mode db = (.ok ((db.rows .peers).contains (key name)), db) :=
  Access.run_contains h .peers (key name)

/-- Reading a peer: its row must be there and be read, and nothing changes. -/
theorem run_get (h : db.Sound) (name : String) :
    (get name).run mode db =
      (match (db.rows .peers).get? (key name) with
        | some value => PeerIdentity.decode name value
        | none => .error (.notFound (.peer name)), db) := Access.run_record h .peers (key name)

/-- Reading all peers: every row must be read, and one that is not fails the whole list. -/
theorem run_all (h : db.Sound) :
    Peers.all.run mode db = ((db.rows .peers).toList.mapM ofRow, db) :=
  (Access.run_bind_ok (Access.run_all h .peers)).trans (Access.run_liftM _)

/-- Adding a peer under a new name writes one row. -/
theorem run_add (h : db.Sound) {p : PeerIdentity}
    (hnew : (db.rows .peers).get? (key p.name) = none) :
    (add p).run .update db =
      (.ok (), db.withRows .peers ((db.rows .peers).insert (key p.name) p.encode)) := by
  have hrun := Access.run_insertNew h .peers (key p.name) p.encode
  rw [Rows.contains_eq_false.2 hnew] at hrun
  exact Access.run_bind_ok hrun

/-- A name that is taken is refused, and its row stays. -/
theorem run_add_of_contains (h : db.Sound) {p : PeerIdentity}
    (hthere : (db.rows .peers).contains (key p.name) = true) :
    (add p).run .update db = (.error (.alreadyExists (.peer p.name)), db) := by
  have hrun := Access.run_insertNew h .peers (key p.name) p.encode
  rw [if_pos hthere] at hrun
  exact Access.run_bind_ok hrun

/-- Removing a peer that is there takes its row away. The row need not be read. -/
theorem run_remove (h : db.Sound) {name : String} {value : Bytes}
    (hthere : (db.rows .peers).get? (key name) = some value) :
    (remove name).run .update db =
      (.ok (), db.withRows .peers ((db.rows .peers).erase (key name))) := by
  have hrun := Access.run_erase h .peers (key name)
  rw [show (db.rows .peers).contains (key name) = true by rw [Rows.contains, hthere]; rfl] at hrun
  exact Access.run_bind_ok hrun

/-- A peer that is not there cannot be removed, and nothing changes. -/
theorem run_remove_of_not_contains (h : db.Sound) {name : String}
    (hgone : (db.rows .peers).contains (key name) = false) :
    (remove name).run .update db = (.error (.notFound (.peer name)), db) := by
  have hrun := Access.run_erase h .peers (key name)
  rw [hgone] at hrun
  exact Access.run_bind_ok hrun

end Peers

/-! ## The identity of the server -/

namespace Identity

variable {mode : Mode} {db : Database}

/-- Reading the identity changes nothing, even if it fails. -/
theorem run_get_snd : (Identity.get.run mode db).2 = db := Access.run_record_snd

/-- Writing the identity, in place of the old one if there is one. -/
theorem run_set (h : db.Sound) (s : ServerIdentity) :
    (set s).run .update db =
      (.ok (), db.withRows .server ((db.rows .server).insert key s.encode)) :=
  Access.run_put h .server key s.encode

/-- Looking for the identity of the server, without reading it. -/
theorem run_present (h : db.Sound) :
    present.run mode db = (.ok ((db.rows .server).contains key), db) :=
  Access.run_contains h .server key

/-- Reading the identity: its row must be there and be read, and nothing changes. -/
theorem run_get (h : db.Sound) :
    Identity.get.run mode db =
      (match (db.rows .server).get? key with
        | some value => ServerIdentity.decode value
        | none => .error (.notFound .serverIdentity), db) := Access.run_record h .server key

end Identity

end WireKeeper
