import WireKeeper.Store.Database

/-! # Access inside a transaction

An `Access` works on the database that a transaction sees. It can fail, and what it changed before
it failed stays; in a **view** every change is refused.

* `get?`, `contains`, `all`: reading;
* `insertNew`, `put`, `erase`, `clear`: changing. -/

namespace WireKeeper

/-- What a transaction may do: change rows, or only read them. -/
inductive Mode where
  | update
  | view
  deriving DecidableEq, Repr

/-- Work on the database of a transaction, which knows its mode and can fail. -/
abbrev Access := ReaderT Mode (ExceptT StoreError (StateM Database))

namespace Access

/-- Run an access in a mode: what it gives, or why it fails, and the database after it. What was
changed before a failure is still there. -/
def run {α : Type} (a : Access α) (mode : Mode) (db : Database) :
    Except StoreError α × Database := (a mode).run db

/-- The table of a bucket, which must be there; a missing one is a failure of the database. -/
def table (b : Bucket) : Access Table := do
  match (← getThe Database).table b with
  | some t => pure t
  | none => throw .database

/-- Refuse in a view. Every access that changes something begins with this, so it also refuses where
there would be nothing to change. -/
def requireUpdate : Access Unit := do
  match ← readThe Mode with
  | .update => pure ()
  | .view => throw .readOnly

/-- Replace the rows of a bucket; what its table blocks stays. -/
def setRows (b : Bucket) (t : Table) (rows : Rows) : Access Unit :=
  modifyThe Database fun db => db.setTable b (some { t with rows := rows })

/-- The value under a key, or `none` if there is no row under it. -/
def get? (b : Bucket) (key : Bytes) : Access (Option Bytes) := do
  let t ← table b
  pure (t.rows.get? key)

/-- Whether there is a row under a key, whatever its value. -/
def contains (b : Bucket) (key : Bytes) : Access Bool := do
  let t ← table b
  pure (t.rows.contains key)

/-- All rows of a bucket, in the order of their keys. -/
def all (b : Bucket) : Access (List Row) := do
  let t ← table b
  pure t.rows.toList

/-- Write a row unless there is one under the key; says whether it was written. A block fails even
where nothing is to be written. -/
def insertNew (b : Bucket) (key value : Bytes) : Access Bool := do
  requireUpdate
  let t ← table b
  if t.blocks .insert then throw .database
  else if t.rows.contains key then pure false
  else
    setRows b t (t.rows.insert key value)
    pure true

/-- Write a row, instead of one under the same key, which then counts as an update too. -/
def put (b : Bucket) (key value : Bytes) : Access Unit := do
  requireUpdate
  let t ← table b
  if t.blocks .insert || (t.blocks .update && t.rows.contains key) then throw .database
  else setRows b t (t.rows.insert key value)

/-- Remove the row under a key; says whether there was one. Where there is none, no block
matters. -/
def erase (b : Bucket) (key : Bytes) : Access Bool := do
  requireUpdate
  let t ← table b
  if t.rows.contains key then
    if t.blocks .delete then throw .database
    else
      setRows b t (t.rows.erase key)
      pure true
  else pure false

/-- Remove all rows; a block matters only if there is one. -/
def clear (b : Bucket) : Access Unit := do
  requireUpdate
  let t ← table b
  if t.blocks .delete && !t.rows.toList.isEmpty then throw .database
  else setRows b t ∅

end Access

end WireKeeper
