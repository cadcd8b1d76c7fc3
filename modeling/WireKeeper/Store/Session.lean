import WireKeeper.Store.Operation

/-! # Transactions and sections

The `Store` holds the committed database and says who is inside its **section**: one update, or any
number of views. A transaction enters the section when it begins and works on a copy; its commit
keeps the section, so that nothing happens between the commit and what depends on it, and a
transaction begun again under that section starts from what was committed.

* `Store.begin`, `Transaction.commit`, `Section.reopen`, `Store.leave`: the life of a transaction;
* `Session`: transactions and kept sections by name, driven step by step. -/

namespace WireKeeper

/-- The store: what is committed and who is inside the section. -/
structure Store where
  committed : Database := .empty
  /-- The number of views inside the section. -/
  views : Nat := 0
  /-- Whether an update is inside the section. -/
  updating : Bool := false
  /-- A closed store begins no more transactions. -/
  closed : Bool := false
  deriving DecidableEq

/-- An open transaction and the database as it sees it, which is its own copy. -/
structure Transaction where
  mode : Mode
  work : Database
  deriving DecidableEq

/-- The section that a committed transaction has kept, which is all that is left of it. -/
structure KeptSection where
  mode : Mode
  deriving DecidableEq

/-- What comes of an attempt to begin a transaction. One that is blocked could be made
again later. -/
inductive Attempt where
  /-- Somebody is inside the section who must leave first. -/
  | blocked
  | failed (reason : StoreError)
  | begun (t : Transaction) (s : Store)

namespace Store

/-- Whether the section admits another transaction. An update is alone inside. -/
def admits (s : Store) : Mode → Bool
  | .update => !s.updating && s.views == 0
  | .view => !s.updating

/-- Whether nobody is inside the section, neither an update nor a view. -/
def free (s : Store) : Bool := s.admits .update

/-- Enter the section, which must admit the mode. -/
def enter (s : Store) : Mode → Store
  | .update => { s with updating := true }
  | .view => { s with views := s.views + 1 }

/-- Leave the section, in the mode in which it was entered. -/
def leave (s : Store) : Mode → Store
  | .update => { s with updating := false }
  | .view => { s with views := s.views - 1 }

/-- Start a transaction for somebody who is inside the section; it sees what is committed. -/
def start (s : Store) (mode : Mode) : Except StoreError Transaction :=
  if s.closed then .error .database else .ok ⟨mode, s.committed⟩

/-- Begin a transaction: enter the section and start it there. When this fails, the section is not
entered. -/
def begin (s : Store) (mode : Mode) : Attempt :=
  if s.admits mode then
    match s.start mode with
    | .ok t => .begun t (s.enter mode)
    | .error e => .failed e
  else .blocked

end Store

namespace Transaction

/-- Work inside a transaction; a failure keeps what was changed before it, for the holder to give
up. -/
def run {α : Type} (t : Transaction) (a : Access α) : Except StoreError α × Transaction :=
  let (result, work) := a.run t.mode t.work
  (result, { t with work := work })

/-- Commit a transaction; its section is kept. A view has nothing to commit. -/
def commit (t : Transaction) (s : Store) : KeptSection × Store :=
  match t.mode with
  | .update => (⟨.update⟩, { s with committed := t.work })
  | .view => (⟨.view⟩, s)

/-- Give a transaction up: nothing of it stays, and the section is left. -/
def rollback (t : Transaction) (s : Store) : Store := s.leave t.mode

end Transaction

namespace KeptSection

/-- Begin a transaction again under a kept section; the section is left when that fails. -/
def reopen (k : KeptSection) (s : Store) : Except StoreError Transaction × Store :=
  match s.start k.mode with
  | .ok t => (.ok t, s)
  | .error e => (.error e, s.leave k.mode)

/-- Leave a kept section, so that others can enter. -/
def release (k : KeptSection) (s : Store) : Store := s.leave k.mode

end KeptSection

namespace Store

/-- Run a whole update on a store whose section is free: committed and released if it succeeds,
given up otherwise. -/
def update {α : Type} (s : Store) (a : Access α) : Except StoreError α × Store :=
  match s.begin .update with
  | .blocked => (.error (.internal "section is held"), s)
  | .failed e => (.error e, s)
  | .begun t s =>
    match t.run a with
    | (.ok x, t) =>
      let (kept, s) := t.commit s
      (.ok x, kept.release s)
    | (.error e, t) => (.error e, t.rollback s)

/-- Run a whole view on a store, which is afterwards as it was before. -/
def view {α : Type} (s : Store) (a : Access α) : Except StoreError α :=
  match s.begin .view with
  | .blocked => .error (.internal "section is held")
  | .failed e => .error e
  | .begun t _ => (t.run a).1

end Store

/-! ## Sessions -/

/-- What a name stands for in a session: an open transaction, or the section of one that was
committed. -/
inductive Holding where
  | transaction (t : Transaction)
  | section (k : KeptSection)
  deriving DecidableEq

/-- How a holding counts inside the section: as an update or as a view. -/
def Holding.mode : Holding → Mode
  | .transaction t => t.mode
  | .section k => k.mode

/-- A store with named transactions and sections; a name stands for one thing at a time. -/
structure Session where
  store : Store := {}
  holdings : List (String × Holding) := []

/-- A step of a session, which is done with what a name stands for. -/
inductive Step where
  | begin (mode : Mode)
  | commit
  | release
  | reopen
  | rollback
  | drop
  | mode
  | perform (op : Operation)

/-- What a step gives, be it a reply or the reason why there is none. -/
inductive StepResult where
  | done
  | blocked
  | mode (m : Mode)
  | reply (r : Reply)
  | failed (e : StoreError)
  /-- The name stands for nothing that the step could work on. -/
  | absent
  deriving DecidableEq

namespace Session

/-- What a name stands for, or `none` if it stands for nothing. -/
def holding? (s : Session) (name : String) : Option Holding := s.holdings.lookup name

/-- Let a name stand for something else; what it stood for is not dropped here. -/
def hold (s : Session) (name : String) (h : Holding) : Session :=
  { s with holdings := (name, h) :: s.holdings.filter (·.1 ≠ name) }

/-- Let a name stand for nothing; the section is not left here. -/
def forget (s : Session) (name : String) : Session :=
  { s with holdings := s.holdings.filter (·.1 ≠ name) }

/-- Leave the section with whatever a name stands for; without anything, nothing happens. -/
def drop (s : Session) (name : String) : Session :=
  match s.holding? name with
  | some h => { s.forget name with store := s.store.leave h.mode }
  | none => s

/-- Begin a transaction under a name; what the name stood for before is dropped. -/
def begin (s : Session) (name : String) (mode : Mode) : StepResult × Session :=
  match s.store.begin mode with
  | .blocked => (.blocked, s)
  | .failed e => (.failed e, s)
  | .begun t store => (.done, ({ s with store := store }.drop name).hold name (.transaction t))

/-- Do a step with what a name stands for. A step that the name cannot take is `.absent`. An
operation that fails leaves the transaction with its holder; this is also where one that breaks off
(`StoreError.brokenOff`) leaves it, whose holder then drops it without a commit. -/
def step (s : Session) (name : String) (st : Step) : StepResult × Session :=
  match st, s.holding? name with
  | .begin mode, _ => s.begin name mode
  | .drop, _ => (.done, s.drop name)
  | .mode, some h => (.mode h.mode, s)
  | .commit, some (.transaction t) =>
    let (kept, store) := t.commit s.store
    (.done, { s with store := store }.hold name (.section kept))
  | .rollback, some (.transaction t) =>
    (.done, { s.forget name with store := t.rollback s.store })
  | .perform op, some (.transaction t) =>
    let (result, t) := t.run op.perform
    let s := s.hold name (.transaction t)
    match result with
    | .ok reply => (.reply reply, s)
    | .error e => (.failed e, s)
  | .release, some (.section k) => (.done, { s.forget name with store := k.release s.store })
  | .reopen, some (.section k) =>
    match k.reopen s.store with
    | (.ok t, store) => (.done, { s with store := store }.hold name (.transaction t))
    | (.error e, store) => (.failed e, { s.forget name with store := store })
  | _, _ => (.absent, s)

/-- Open the same database anew: missing buckets are made, nothing is held. -/
def restart (s : Session) : Session := ⟨⟨s.store.committed.restored, 0, false, false⟩, []⟩

/-- Close the store: what is open can go on, but nothing begins any more. -/
def close (s : Session) : Session := { s with store := { s.store with closed := true } }

end Session

end WireKeeper
