import WireKeeper.Proofs.Store.Transactions

/-! # A database that may refuse

A bucket may block kinds of changes, or be missing. Each access to the peers then either is refused
and leaves everything as it is, or does just what it does on a sound database to the rows, and the
bucket goes on blocking what it blocked. Whether a peer can be added is a matter of its name alone.

* `Database.setRows`: other rows in a bucket that keeps what it blocks;
* `Peers.run_contains_cases`, `Peers.run_add_cases`, `Peers.run_remove_cases`: the accesses to
  peers;
* `Identity.of_run_get`, `Identity.run_get_of_row`: reading the identity of the server. -/

namespace WireKeeper

namespace Database

/-! ## Rows -/

/-- Replace the rows of a bucket, which goes on blocking what it blocked; a missing one stays
missing. -/
def setRows (db : Database) (b : Bucket) (rows : Rows) : Database :=
  match db.table b with
  | some t => db.setTable b (some { t with rows := rows })
  | none => db

variable {db : Database} {b c : Bucket} {t : Table}

/-- New rows in a bucket that is there; what it blocks stays. -/
theorem setRows_of_table (h : db.table b = some t) (rows : Rows) :
    db.setRows b rows = db.setTable b (some { t with rows := rows }) := by
  rw [setRows, h]

/-- The rows of a bucket that is there are those of its table. -/
theorem rows_of_table (h : db.table b = some t) : db.rows b = t.rows := by
  rw [Database.rows, h]

/-- A bucket that has a row is there. -/
theorem exists_table_of_get? {key value : Bytes} (h : (db.rows b).get? key = some value) :
    ∃ t, db.table b = some t := by
  cases htable : db.table b with
  | some t => exact ⟨t, rfl⟩
  | none =>
    rw [Database.rows, htable] at h
    cases h

/-- The table of a bucket with new rows blocks what it blocked before. -/
theorem table_setRows (h : db.table b = some t) (rows : Rows) :
    (db.setRows b rows).table b = some { t with rows := rows } := by
  rw [setRows_of_table h, table_setTable, if_pos rfl]

/-- The rows that were put into a bucket that is there. -/
theorem rows_setRows (h : ∃ t, db.table b = some t) (rows : Rows) :
    (db.setRows b rows).rows b = rows := by
  obtain ⟨t, ht⟩ := h
  rw [rows_of_table (table_setRows ht rows)]

/-- The other buckets keep their tables. -/
theorem table_setRows_of_ne (hne : c ≠ b) (rows : Rows) :
    (db.setRows b rows).table c = db.table c := by
  rw [setRows]
  split
  · rw [table_setTable, if_neg hne]
  · rfl

/-- The other buckets keep their rows. -/
theorem rows_setRows_of_ne (hne : c ≠ b) (rows : Rows) :
    (db.setRows b rows).rows c = db.rows c := by
  rw [Database.rows, table_setRows_of_ne hne]
  rfl

/-- The rows that were put into a bucket last count. -/
theorem setRows_setRows (rows rows' : Rows) :
    (db.setRows b rows).setRows b rows' = db.setRows b rows' := by
  cases h : db.table b with
  | none => rw [setRows, setRows, h, setRows, h]
  | some t =>
    rw [setRows_of_table (table_setRows h rows), setRows_of_table h, setRows_of_table h]
    cases b <;> rfl

/-- Its own rows leave a database as it is, also if the bucket is missing. -/
theorem setRows_rows : db.setRows b (db.rows b) = db := by
  cases h : db.table b with
  | none => rw [setRows, h]
  | some t =>
    rw [setRows_of_table h, rows_of_table h, ← h]
    cases b <;> rfl

/-- Blocking or allowing changes changes no row itself. -/
theorem rows_of_setBlock {db' : Database} {verb : Verb} {on : Bool}
    (h : db.setBlock b verb on = .ok db') : db'.rows c = db.rows c := by
  rw [setBlock, modifyTable] at h
  split at h
  · cases h
  · next t ht =>
    cases h
    rw [Database.rows, Database.rows, table_setTable]
    by_cases hc : c = b
    · rw [if_pos hc, hc, ht]
      rfl
    · rw [if_neg hc]

/-- Blocking or allowing changes makes no bucket go missing. -/
theorem exists_table_of_setBlock {db' : Database} {verb : Verb} {on : Bool}
    (h : db.setBlock b verb on = .ok db') (htable : ∃ t, db.table c = some t) :
    ∃ t, db'.table c = some t := by
  rw [setBlock, modifyTable] at h
  split at h
  · cases h
  · cases h
    rw [table_setTable]
    by_cases hc : c = b
    · rw [if_pos hc]
      exact ⟨_, rfl⟩
    · rw [if_neg hc]
      exact htable

end Database

/-! ## Accesses to the peers -/

namespace Access

variable {mode : Mode} {db : Database} {b : Bucket} {t : Table}

/-- The table of a bucket that is there is found. -/
theorem run_table_of_some (h : db.table b = some t) :
    (table b).run mode db = (.ok t, db) := by
  refine (run_bind_ok run_read).trans ?_
  rw [h]
  rfl

/-- A missing bucket has no table, which is a failure of the database. -/
theorem run_table_of_none (h : db.table b = none) :
    (table b).run mode db = (.error .database, db) := by
  refine (run_bind_ok run_read).trans ?_
  rw [h]
  rfl

/-- Looking up a row in a bucket that is there, whatever it blocks. -/
theorem run_get?_of_table (h : db.table b = some t) (key : Bytes) :
    (get? b key).run mode db = (.ok (t.rows.get? key), db) :=
  run_bind_ok (run_table_of_some h)

/-- Reading one record whose row is there gives what the row is read as. -/
theorem run_record_of_row {α : Type} {key value : Bytes} {decode : Bytes → Except StoreError α}
    {missing : StoreError} (h : (db.rows b).get? key = some value) :
    (record b key decode missing).run mode db = (decode value, db) := by
  obtain ⟨t, ht⟩ := Database.exists_table_of_get? h
  rw [Database.rows_of_table ht] at h
  refine (run_bind_ok (run_get?_of_table ht key)).trans ?_
  rw [h]
  exact run_liftM _

/-- A row that was written is there. Nothing is asked of the database here but that writing
succeeded. -/
theorem get?_of_run_put {key value : Bytes} {u : Unit} {db' : Database}
    (h : (put b key value).run .update db = (.ok u, db')) :
    (db'.rows b).get? key = some value := by
  rw [put, run_bind_ok run_requireUpdate] at h
  obtain ⟨t, db₁, ht, hrest⟩ := run_bind_eq_ok.1 h
  split at hrest
  · cases hrest
  · cases hrest
    rw [Database.rows, Database.table_setTable, if_pos rfl]
    exact Rows.get?_insert_self ..

end Access

namespace Peers

variable {mode : Mode} {db db' : Database} {name : String} {t : Table}

/-- Looking for a peer in a bucket that is there, whatever it blocks. -/
theorem run_contains_of_table (h : db.table .peers = some t) :
    (contains name).run mode db = (.ok (t.rows.contains (key name)), db) :=
  Access.run_bind_ok (Access.run_table_of_some h)

/-- Looking for a peer is refused or answered from the rows, and changes nothing. -/
theorem run_contains_cases (name : String) (db : Database) :
    (∃ e, (contains name).run mode db = (.error e, db)) ∨
      (contains name).run mode db = (.ok ((db.rows .peers).contains (key name)), db) := by
  cases h : db.table .peers with
  | none =>
    left
    rw [contains, Access.contains, Access.run_bind, Access.run_table_of_none h]
    exact ⟨_, rfl⟩
  | some t =>
    right
    rw [run_contains_of_table h, Database.rows_of_table h]

/-- Reading a peer whose row is there gives what the row is read as. -/
theorem run_get_of_row {value : Bytes} (h : (db.rows .peers).get? (key name) = some value) :
    (get name).run mode db = (PeerIdentity.decode name value, db) := Access.run_record_of_row h

/-- All peers of a bucket that is there are read if and only if every row is. -/
theorem run_all_of_table (h : db.table .peers = some t) :
    Peers.all.run mode db = ((db.rows .peers).toList.mapM ofRow, db) := by
  rw [Database.rows_of_table h]
  exact (Access.run_bind_ok (Access.run_bind_ok (Access.run_table_of_some h))).trans
    (Access.run_liftM _)

/-- All peers are read from a bucket only if that is there. -/
theorem exists_table_of_run_all {ps : List PeerIdentity}
    (h : Peers.all.run mode db = (.ok ps, db')) : ∃ t, db.table .peers = some t := by
  cases htable : db.table .peers with
  | some t => exact ⟨t, rfl⟩
  | none =>
    rw [Peers.all, Access.all, Access.run_bind, Access.run_bind,
      Access.run_table_of_none htable] at h
    cases h

/-- Adding a peer is refused, whatever else there is to it but its name, or the peer is added under
a new name. Which of the two it is depends on the name and the database alone. -/
theorem run_add_cases (name : String) (db : Database) :
    (∃ e, ∀ p : PeerIdentity, p.name = name → (add p).run .update db = (.error e, db)) ∨
      (∃ t, db.table .peers = some t) ∧ (db.rows .peers).get? (key name) = none ∧
        ∀ p : PeerIdentity, p.name = name → (add p).run .update db =
          (.ok (), db.setRows .peers ((db.rows .peers).insert (key name) p.encode)) := by
  cases h : db.table .peers with
  | none =>
    refine .inl ⟨.database, fun p _ => ?_⟩
    rw [add, Access.run_bind, Access.insertNew, Access.run_bind_ok Access.run_requireUpdate,
      Access.run_bind, Access.run_table_of_none h]
  | some t =>
    have hinsert : ∀ value, (Access.insertNew .peers (key name) value).run .update db =
        Access.run (if t.blocks .insert then throw .database
          else if t.rows.contains (key name) then pure false
          else do
            Access.setRows .peers t (t.rows.insert (key name) value)
            pure true) .update db := fun value =>
      (Access.run_bind_ok Access.run_requireUpdate).trans
        (Access.run_bind_ok (Access.run_table_of_some h))
    -- a blocked insertion fails before the key is looked for
    cases hblocks : t.blocks .insert with
    | true =>
      refine .inl ⟨.database, ?_⟩
      rintro p rfl
      rw [add, Access.run_bind, hinsert, if_pos hblocks]
      rfl
    | false =>
      cases hcontains : t.rows.contains (key name) with
      | true =>
        refine .inl ⟨.alreadyExists (.peer name), ?_⟩
        rintro p rfl
        rw [add, Access.run_bind, hinsert, hblocks, if_neg Bool.false_ne_true, if_pos hcontains]
        rfl
      | false =>
        refine .inr ⟨⟨t, rfl⟩, ?_, ?_⟩
        · rw [Database.rows_of_table h]
          exact Rows.contains_eq_false.1 hcontains
        · rintro p rfl
          rw [add, Access.run_bind, hinsert, hblocks, if_neg Bool.false_ne_true, hcontains,
            if_neg Bool.false_ne_true, Database.setRows_of_table h, Database.rows_of_table h]
          rfl

/-- Removing a peer is refused and changes nothing, or its row was there and is removed. -/
theorem run_remove_cases (name : String) (db : Database) :
    (∃ e, (remove name).run .update db = (.error e, db)) ∨
      ∃ value, (db.rows .peers).get? (key name) = some value ∧
        (remove name).run .update db =
          (.ok (), db.setRows .peers ((db.rows .peers).erase (key name))) := by
  cases h : db.table .peers with
  | none =>
    left
    rw [remove, Access.run_bind, Access.erase, Access.run_bind_ok Access.run_requireUpdate,
      Access.run_bind, Access.run_table_of_none h]
    exact ⟨_, rfl⟩
  | some t =>
    have herase : (Access.erase .peers (key name)).run .update db =
        Access.run (if t.rows.contains (key name) then
          if t.blocks .delete then throw .database
          else do
            Access.setRows .peers t (t.rows.erase (key name))
            pure true
          else pure false) .update db :=
      (Access.run_bind_ok Access.run_requireUpdate).trans
        (Access.run_bind_ok (Access.run_table_of_some h))
    -- a key that is not there is reported even where removing is blocked
    cases hcontains : t.rows.contains (key name) with
    | false =>
      left
      rw [remove, Access.run_bind, herase, hcontains, if_neg Bool.false_ne_true]
      exact ⟨_, rfl⟩
    | true =>
      cases hblocks : t.blocks .delete with
      | true =>
        left
        rw [remove, Access.run_bind, herase, if_pos hcontains, if_pos hblocks]
        exact ⟨_, rfl⟩
      | false =>
        right
        obtain ⟨value, hget⟩ := Option.isSome_iff_exists.1 hcontains
        refine ⟨value, ?_, ?_⟩
        · rw [Database.rows_of_table h]
          exact hget
        · rw [remove, Access.run_bind, herase, if_pos hcontains, hblocks,
            if_neg Bool.false_ne_true, Database.setRows_of_table h, Database.rows_of_table h]
          rfl

end Peers

/-! ## The identity of the server -/

namespace Identity

variable {mode : Mode} {db db' : Database}

/-- An identity that was read was read from its row. -/
theorem of_run_get {i : ServerIdentity} (h : Identity.get.run mode db = (.ok i, db')) :
    ∃ value, (db.rows .server).get? key = some value ∧ ServerIdentity.decode value = .ok i :=
  Access.of_run_record h

/-- Reading the identity whose row is there gives what the row is read as. -/
theorem run_get_of_row {value : Bytes} (h : (db.rows .server).get? key = some value) :
    Identity.get.run mode db = (ServerIdentity.decode value, db) := Access.run_record_of_row h

end Identity

end WireKeeper
