import WireKeeper.Store.Error
import WireKeeper.Store.Rows

/-! # The database

Three **buckets** of rows. A bucket may be missing, and a bucket may **block** kinds of changes:
every use of a missing bucket fails, and so does every change that is blocked. -/

namespace WireKeeper

/-- The collections of records, each of which is a table of its own. -/
inductive Bucket where
  /-- Credentials, by the blob of the key. -/
  | credentials
  /-- Peers, by name. -/
  | peers
  /-- The identity of the server. -/
  | server
  deriving DecidableEq, Repr

/-- The kinds of changes that a bucket can block. -/
inductive Verb where
  | insert
  | update
  | delete
  deriving DecidableEq, Repr

/-- The rows of a bucket and the kinds of changes it blocks, which is how failures of the database
are told. -/
structure Table where
  rows : Rows := ∅
  blocked : List Verb := []
  deriving DecidableEq

/-- All buckets, of which any may be missing. -/
structure Database where
  credentials : Option Table := some {}
  peers : Option Table := some {}
  server : Option Table := some {}
  deriving DecidableEq

namespace Table

/-- Whether a kind of change is blocked, so that it fails before anything is changed. -/
def blocks (t : Table) (verb : Verb) : Bool := t.blocked.contains verb

/-- Block a kind of change, or no longer; the others stay as they are. -/
def setBlock (t : Table) (verb : Verb) (on : Bool) : Table :=
  let others := t.blocked.filter (· ≠ verb)
  { t with blocked := if on then verb :: others else others }

end Table

namespace Database

/-- A database without rows: its buckets are there, and they block nothing. -/
def empty : Database := {}

/-- A database in which no bucket was made, so that every use of one fails. -/
def bare : Database := ⟨none, none, none⟩

/-- The table of a bucket, unless it is missing: each bucket has a field of its own. -/
def table (db : Database) : Bucket → Option Table
  | .credentials => db.credentials
  | .peers => db.peers
  | .server => db.server

/-- Replace the table of a bucket, or let it be missing; the other buckets stay. -/
def setTable (db : Database) (b : Bucket) (t : Option Table) : Database :=
  match b with
  | .credentials => { db with credentials := t }
  | .peers => { db with peers := t }
  | .server => { db with server := t }

/-- The rows of a bucket; a missing one has none, so rows can be spoken of without asking whether it
is there. -/
def rows (db : Database) (b : Bucket) : Rows :=
  match db.table b with
  | some t => t.rows
  | none => ∅

/-- Make every missing bucket anew, without rows; those that are there stay as they are. -/
def restored (db : Database) : Database :=
  ⟨some (db.credentials.getD {}), some (db.peers.getD {}), some (db.server.getD {})⟩

/-- Every bucket is there and blocks nothing, so that no access fails because of the database
itself. -/
def Sound (db : Database) : Prop := ∀ b, ∃ t, db.table b = some t ∧ t.blocked = []

/-- `(db.setTable b t).table c` is `t` for `c = b`, and what it was for every other bucket. -/
@[simp] theorem table_setTable (db : Database) (b c : Bucket) (t : Option Table) :
    (db.setTable b t).table c = if c = b then t else db.table c := by
  cases b <;> cases c <;> rfl

/-- The empty database is sound: its three buckets are there, and they block nothing. -/
theorem sound_empty : empty.Sound := fun b => ⟨{}, by cases b <;> rfl, rfl⟩

/-! ## Direct access

Reading and changing rows outside of transactions. -/

/-- Change a table that must be there; a missing one is a failure of the database. -/
def modifyTable (db : Database) (b : Bucket) (f : Table → Except StoreError Table) :
    Except StoreError Database :=
  match db.table b with
  | none => .error .database
  | some t => (f t).map fun t => db.setTable b (some t)

/-- Write a row, instead of one under the same key; only a block on insertions matters here. -/
def putRow (db : Database) (b : Bucket) (key value : Bytes) : Except StoreError Database :=
  db.modifyTable b fun t =>
    if t.blocks .insert then .error .database
    else .ok { t with rows := t.rows.insert key value }

/-- Remove a row; where there is none, no block matters. -/
def eraseRow (db : Database) (b : Bucket) (key : Bytes) : Except StoreError Database :=
  db.modifyTable b fun t =>
    if t.blocks .delete && t.rows.contains key then .error .database
    else .ok { t with rows := t.rows.erase key }

/-- Block a kind of change, or no longer, in a bucket that must be there. -/
def setBlock (db : Database) (b : Bucket) (verb : Verb) (on : Bool) : Except StoreError Database :=
  db.modifyTable b fun t => .ok (t.setBlock verb on)

end Database

end WireKeeper
