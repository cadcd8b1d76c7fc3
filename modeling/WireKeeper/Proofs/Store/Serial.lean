import WireKeeper.Proofs.Store.Operations
import WireKeeper.Proofs.Store.Sections

/-! # Interleaved transactions

However the steps of transactions are interleaved, it is as if the updates that were committed had
been done one after the other in the order of their commits. A **journal** is kept beside the run:
for each name the contents on which its transaction began and the operations that it has done since,
and for each commit of an update the operations of that update.

* `replay`: operations one after the other;
* `Journal.record`: what a step adds to the journal;
* `Chronicle`: a session with its journal, `Chronicle.run` a run of both;
* `Chronicle.Faithful`: the journal tells what is committed and what each name stands for, kept by
  every step (`Chronicle.Faithful.move`);
* `Chronicle.serial_run`: every run is serial. -/

namespace WireKeeper

/-- What operations leave, one after the other, in a transaction. -/
def replay (mode : Mode) (ops : List Operation) (db : Database) : Database :=
  ops.foldl (fun db op => (op.perform.run mode db).2) db

/-- One more operation works on what the others have left. -/
theorem replay_append {mode : Mode} {ops : List Operation} {op : Operation} {db : Database} :
    replay mode (ops ++ [op]) db = (op.perform.run mode (replay mode ops db)).2 :=
  List.foldl_append

/-- In a view operations leave everything as it is, however many they are. -/
theorem replay_view {ops : List Operation} {db : Database} : replay .view ops db = db := by
  induction ops with
  | nil => rfl
  | cons op ops ih => exact (congrArg (replay .view ops) (op.reads_perform db)).trans ih

/-! ## The journal -/

/-- What the journal says about a name that stands for something. -/
inductive Account where
  /-- A transaction that began on a database, and what it has done since. -/
  | working (mode : Mode) (base : Database) (own : List Operation)
  /-- A kept section, and what was committed when the transaction before it was committed. -/
  | kept (mode : Mode) (base : Database)

namespace Account

/-- What was committed when the account began. -/
def base : Account → Database
  | .working _ base _ => base
  | .kept _ base => base

/-- What a name with this account stands for: a transaction with what its operations leave, or a
kept section. -/
def holding : Account → Holding
  | .working mode base own => .transaction ⟨mode, replay mode own base⟩
  | .kept mode _ => .section ⟨mode⟩

end Account

/-- The accounts of all names, and the operations of each update that was committed, in the order of
the commits. -/
structure Journal where
  accounts : String → Option Account := fun _ => none
  commits : List (List Operation) := []

namespace Journal

/-- Write the account of a name, or that it has none any more. -/
def note (j : Journal) (name : String) (a : Option Account) : Journal :=
  { j with accounts := fun other => if other = name then a else j.accounts other }

/-- Only the account that was written is another one. -/
theorem accounts_note (j : Journal) (name other : String) (a : Option Account) :
    (j.note name a).accounts other = if other = name then a else j.accounts other := rfl

/-- Enter a step under a name: what it gave, and what was committed before it and after it. -/
def record (j : Journal) (name : String) (st : Step) (result : StepResult)
    (before after : Database) : Journal :=
  match st, result, j.accounts name with
  | .begin mode, .done, _ => j.note name (some (.working mode before []))
  | .reopen, .done, some (.kept mode _) => j.note name (some (.working mode before []))
  | .reopen, .failed _, _ => j.note name none
  | .perform op, .reply _, some (.working mode base own)
  | .perform op, .failed _, some (.working mode base own) =>
    j.note name (some (.working mode base (own ++ [op])))
  | .commit, .done, some (.working .update _ own) =>
    { j.note name (some (.kept .update after)) with commits := j.commits ++ [own] }
  -- a view has nothing to commit, but it keeps its section as well
  | .commit, .done, some (.working .view _ _) => j.note name (some (.kept .view after))
  | .rollback, .done, _ => j.note name none
  | .release, .done, _ => j.note name none
  | .drop, .done, _ => j.note name none
  | _, _, _ => j

/-- What the updates that were committed leave, one after the other in the order of their
commits. -/
def outcome (j : Journal) (initial : Database) : Database :=
  j.commits.foldl (fun db own => replay .update own db) initial

end Journal

/-- What can happen to a session: a step under some name, or the store is closed. -/
inductive Session.Event where
  | step (name : String) (st : Step)
  /-- The store is closed; what is open stays open. -/
  | close

/-- A session and its journal. -/
structure Chronicle where
  session : Session
  journal : Journal

/-! ## What a step does -/

namespace Session

variable {s : Session} {name other : String} {mode : Mode} {t : Transaction} {k : KeptSection}

/-- How a result of an operation is told as the result of a step. -/
def tell : Except StoreError Reply → StepResult
  | .ok reply => .reply reply
  | .error e => .failed e

/-- Beginning where somebody is inside who must leave first. -/
theorem step_begin_of_not_admits (h : s.store.admits mode = false) :
    s.step name (.begin mode) = (.blocked, s) := by
  show s.begin name mode = _
  rw [Session.begin, Store.begin_of_not_admits h]

/-- Beginning on a closed store fails, and what the name stood for stays. -/
theorem step_begin_of_closed (h : s.store.admits mode = true) (hclosed : s.store.closed = true) :
    s.step name (.begin mode) = (.failed .database, s) := by
  show s.begin name mode = _
  rw [Session.begin, Store.begin_of_closed h hclosed]

/-- Beginning on an open store that admits the transaction, which works on what is committed. What
the name stood for is dropped. -/
theorem step_begin (h : s.store.admits mode = true) (hopen : s.store.closed = false) :
    s.step name (.begin mode) =
      (.done, ({ s with store := s.store.enter mode }.drop name).hold name
        (.transaction ⟨mode, s.store.committed⟩)) := by
  show s.begin name mode = _
  rw [Session.begin, Store.begin_of_admits h hopen]

/-- An operation in a transaction works on what that has so far, and commits nothing. -/
theorem step_perform (h : s.holding? name = some (.transaction t)) (op : Operation) :
    s.step name (.perform op) =
      (tell (op.perform.run t.mode t.work).1,
        s.hold name (.transaction ⟨t.mode, (op.perform.run t.mode t.work).2⟩)) := by
  unfold step
  simp only [h, Transaction.run]
  cases op.perform.run t.mode t.work with
  | mk r db => cases r <;> rfl

/-- Committing an update: what it has is committed, and its section is kept. -/
theorem step_commit_update {work : Database}
    (h : s.holding? name = some (.transaction ⟨.update, work⟩)) :
    s.step name .commit =
      (.done, { s with store := { s.store with committed := work } }.hold name
        (.section ⟨.update⟩)) := by
  unfold step
  rw [h]
  rfl

/-- Committing a view commits nothing, and its section is kept. -/
theorem step_commit_view {work : Database}
    (h : s.holding? name = some (.transaction ⟨.view, work⟩)) :
    s.step name .commit = (.done, s.hold name (.section ⟨.view⟩)) := by
  unfold step
  rw [h]
  rfl

/-- Giving a transaction up leaves its section, and what it has is lost. -/
theorem step_rollback (h : s.holding? name = some (.transaction t)) :
    s.step name .rollback =
      (.done, { s.forget name with store := s.store.leave t.mode }) := by
  unfold step
  rw [h]
  rfl

/-- Leaving a kept section changes nothing that is committed. -/
theorem step_release (h : s.holding? name = some (.section ⟨mode⟩)) :
    s.step name .release = (.done, { s.forget name with store := s.store.leave mode }) := by
  unfold step
  rw [h]
  rfl

/-- Dropping whatever a name stands for always succeeds. -/
theorem step_drop : s.step name .drop = (.done, s.drop name) := rfl

/-- Reopening on an open store: a transaction begins under the section that was kept, on what is
committed. -/
theorem step_reopen (h : s.holding? name = some (.section ⟨mode⟩))
    (hopen : s.store.closed = false) :
    s.step name .reopen = (.done, s.hold name (.transaction ⟨mode, s.store.committed⟩)) := by
  unfold step
  simp only [h, KeptSection.reopen, Store.start, hopen]
  rfl

/-- Reopening on a closed store fails, and the section is left. -/
theorem step_reopen_of_closed (h : s.holding? name = some (.section ⟨mode⟩))
    (hclosed : s.store.closed = true) :
    s.step name .reopen =
      (.failed .database, { s.forget name with store := s.store.leave mode }) := by
  unfold step
  simp only [h, KeptSection.reopen, Store.start, hclosed]
  rfl

/-- Dropping leaves alone what the other names stand for. -/
theorem holding?_drop (hne : other ≠ name) : (s.drop name).holding? other = s.holding? other := by
  rw [drop]
  split
  · exact holding?_forget.trans (if_neg hne)
  · rfl

/-- Dropping changes nothing that is committed. -/
theorem committed_drop : (s.drop name).store.committed = s.store.committed := by
  rw [drop]
  split
  · next h _ => cases h.mode <;> rfl
  · rfl

end Session

/-! ## Runs -/

namespace Chronicle

/-- A store that is opened on a database; nobody is inside, and the journal is empty. -/
def opened (initial : Database) : Chronicle := ⟨⟨{ committed := initial }, []⟩, {}⟩

/-- Let something happen and enter it into the journal. -/
def move (c : Chronicle) : Session.Event → Chronicle
  | .step name st =>
    let (result, s) := c.session.step name st
    ⟨s, c.journal.record name st result c.session.store.committed s.store.committed⟩
  | .close => ⟨c.session.close, c.journal⟩

/-- Let things happen one after the other, each entered into the journal. -/
def run (c : Chronicle) (events : List Session.Event) : Chronicle := events.foldl move c

variable {initial : Database} {c : Chronicle} {name : String} {st : Step} {result : StepResult}
  {s : Session} {a : Option Account}

/-- What a step makes of a session and its journal, if its result is known. -/
theorem move_step (h : c.session.step name st = (result, s)) :
    c.move (.step name st) =
      ⟨s, c.journal.record name st result c.session.store.committed s.store.committed⟩ := by
  rw [move, h]

/-- The journal tells what is committed and what each name stands for, and nothing was committed
since an account began. -/
structure Faithful (initial : Database) (c : Chronicle) : Prop where
  counted : c.session.Counted
  committed : c.session.store.committed = c.journal.outcome initial
  told : ∀ name, c.session.holding? name = (c.journal.accounts name).map Account.holding
  current : ∀ name a, c.journal.accounts name = some a → a.base = c.session.store.committed

namespace Faithful

/-- A session is faithful at first, on whatever database. -/
theorem opened : (opened initial).Faithful initial :=
  ⟨Session.Counted.opened, rfl, fun _ => rfl, nofun⟩

/-- The account of one name is written anew and nothing is committed: the journal stays faithful. -/
theorem note (hc : c.Faithful initial) (hcounted : s.Counted)
    (hcommitted : s.store.committed = c.session.store.committed)
    (hname : s.holding? name = a.map Account.holding)
    (hothers : ∀ other, other ≠ name → s.holding? other = c.session.holding? other)
    (hcurrent : ∀ x, a = some x → x.base = c.session.store.committed) :
    Faithful initial ⟨s, c.journal.note name a⟩ := by
  refine ⟨hcounted, hcommitted.trans hc.committed, ?_, ?_⟩
  · intro other
    simp only [Journal.accounts_note]
    -- the name has its new account, and any other the one that it had
    by_cases hother : other = name
    · rw [if_pos hother, hother, hname]
    · rw [if_neg hother, hothers other hother, hc.told other]
  · intro other x hx
    simp only [Journal.accounts_note, hcommitted] at hx ⊢
    by_cases hother : other = name
    · rw [if_pos hother] at hx
      exact hcurrent x hx
    · rw [if_neg hother] at hx
      exact hc.current other x hx

/-- What a name stands for is replaced by something of the same mode, and nothing is committed. -/
theorem hold (hc : c.Faithful initial) {h : Holding} {x : Account}
    (hname : c.session.holding? name = some h) (hmode : x.holding.mode = h.mode)
    (hcurrent : x.base = c.session.store.committed) :
    Faithful initial ⟨c.session.hold name x.holding, c.journal.note name (some x)⟩ := by
  refine hc.note (hc.counted.hold hname hmode rfl rfl) rfl ?_ ?_ ?_
  · exact Session.holding?_hold.trans (if_pos rfl)
  · exact fun other hother => Session.holding?_hold.trans (if_neg hother)
  · rintro _ ⟨⟩
    exact hcurrent

/-- A name is forgotten, and the section is left with what it stood for. Nothing is committed. -/
theorem leave (hc : c.Faithful initial) {h : Holding}
    (hname : c.session.holding? name = some h) :
    Faithful initial ⟨{ c.session.forget name with store := c.session.store.leave h.mode },
      c.journal.note name none⟩ := by
  refine hc.note (hc.counted.leave hname) ?_ ?_ ?_ nofun
  · cases h.mode <;> rfl
  · exact Session.holding?_forget.trans (if_pos rfl)
  · exact fun other hother => Session.holding?_forget.trans (if_neg hother)

/-- A step that leaves session and journal as they are keeps the journal faithful. -/
theorem same (hc : c.Faithful initial) (hstep : c.session.step name st = (result, c.session))
    (hrecord : ∀ db, c.journal.record name st result db db = c.journal) :
    (c.move (.step name st)).Faithful initial := by
  rw [move_step hstep, hrecord]
  exact hc

/-- A step that finds nothing to work on leaves session and journal as they are. -/
theorem absent (hc : c.Faithful initial) (hstep : c.session.step name st = (.absent, c.session)) :
    (c.move (.step name st)).Faithful initial :=
  hc.same hstep fun _ => by cases st <;> rfl

/-- Beginning a transaction: it is let wait, or fails, or stands under its name afterwards. -/
theorem begin (hc : c.Faithful initial) (mode : Mode) :
    (c.move (.step name (.begin mode))).Faithful initial := by
  cases hadmits : c.session.store.admits mode with
  | false => exact hc.same (Session.step_begin_of_not_admits hadmits) fun _ => rfl
  | true =>
    cases hclosed : c.session.store.closed with
    | true => exact hc.same (Session.step_begin_of_closed hadmits hclosed) fun _ => rfl
    | false =>
      rw [move_step (Session.step_begin hadmits hclosed)]
      -- what the name stood for before is dropped, and its account is written anew
      refine hc.note (a := some (.working mode c.session.store.committed []))
        (hc.counted.begin hadmits) ?_ ?_ ?_ ?_
      · refine Session.committed_drop.trans ?_
        cases mode <;> rfl
      · exact Session.holding?_hold.trans (if_pos rfl)
      · intro other hother
        exact (Session.holding?_hold.trans (if_neg hother)).trans (Session.holding?_drop hother)
      · rintro _ ⟨⟩
        rfl

/-- What a name can stand for, and its account: nothing, a transaction on what is committed, or a
kept section. -/
theorem account_cases (hc : c.Faithful initial) (name : String) :
    (c.journal.accounts name = none ∧ c.session.holding? name = none) ∨
      (∃ mode own, c.journal.accounts name = some (.working mode c.session.store.committed own) ∧
        c.session.holding? name =
          some (.transaction ⟨mode, replay mode own c.session.store.committed⟩)) ∨
      ∃ mode, c.journal.accounts name = some (.kept mode c.session.store.committed) ∧
        c.session.holding? name = some (.section ⟨mode⟩) := by
  have htold := hc.told name
  cases haccount : c.journal.accounts name with
  | none =>
    rw [haccount] at htold
    exact .inl ⟨rfl, htold⟩
  | some x =>
    rw [haccount] at htold
    have hbase := hc.current name x haccount
    cases x with
    | working mode base own =>
      obtain rfl : base = _ := hbase
      exact .inr (.inl ⟨mode, own, rfl, htold⟩)
    | kept mode base =>
      obtain rfl : base = _ := hbase
      exact .inr (.inr ⟨mode, rfl, htold⟩)

/-- An operation in a transaction is one more of its account; without a transaction there is nothing
to work on. -/
theorem perform (hc : c.Faithful initial) (op : Operation) :
    (c.move (.step name (.perform op))).Faithful initial := by
  rcases hc.account_cases name with ⟨-, hname⟩ | ⟨mode, own, haccount, hname⟩ | ⟨mode, -, hname⟩
  · exact hc.absent (by unfold Session.step; rw [hname])
  · have hrecord : ∀ r before after,
        c.journal.record name (.perform op) (Session.tell r) before after =
          c.journal.note name
            (some (.working mode c.session.store.committed (own ++ [op]))) := by
      intro r before after
      unfold Journal.record
      cases r <;> simp only [Session.tell, haccount]
    rw [move_step (Session.step_perform hname op), hrecord]
    simp only [← replay_append]
    exact hc.hold (x := .working mode c.session.store.committed (own ++ [op])) hname rfl rfl
  · exact hc.absent (by unfold Session.step; rw [hname])

/-- Committing an update: it is alone, so that no other account goes out of date. -/
theorem commit_update (hc : c.Faithful initial) {own : List Operation}
    (haccount : c.journal.accounts name =
      some (.working .update c.session.store.committed own))
    (hname : c.session.holding? name =
      some (.transaction ⟨.update, replay .update own c.session.store.committed⟩)) :
    (c.move (.step name .commit)).Faithful initial := by
  have halone := hc.counted.alone hname rfl
  rw [move_step (Session.step_commit_update hname)]
  unfold Journal.record
  simp only [haccount]
  refine ⟨hc.counted.hold hname rfl rfl rfl, ?_, ?_, ?_⟩
  · -- the update began on what the commits before it had left
    rw [Journal.outcome, List.foldl_append, ← Journal.outcome, ← hc.committed]
    rfl
  · intro other
    simp only [Journal.accounts_note, Session.holding?_hold]
    by_cases hother : other = name
    · rw [if_pos hother, if_pos hother]
      rfl
    · rw [if_neg hother, if_neg hother]
      exact hc.told other
  · intro other x hx
    simp only [Journal.accounts_note] at hx
    by_cases hother : other = name
    · rw [if_pos hother] at hx
      cases hx
      rfl
    · -- no other name has an account, or it would stand for something
      rw [if_neg hother] at hx
      have hnone : c.session.holding? other = none := by
        rw [Session.holding?, halone, List.lookup_cons, beq_false_of_ne hother]
        rfl
      have htold := hc.told other
      rw [hnone, hx] at htold
      cases htold

/-- Ending a transaction: an update is written down among the commits, and a view only keeps its
section. -/
theorem commit (hc : c.Faithful initial) : (c.move (.step name .commit)).Faithful initial := by
  rcases hc.account_cases name with ⟨-, hname⟩ | ⟨mode, own, haccount, hname⟩ | ⟨mode, -, hname⟩
  · exact hc.absent (by unfold Session.step; rw [hname])
  · cases mode with
    | update => exact hc.commit_update haccount hname
    | view =>
      rw [move_step (Session.step_commit_view hname)]
      unfold Journal.record
      simp only [haccount]
      exact hc.hold (x := .kept .view c.session.store.committed) hname rfl rfl
  · exact hc.absent (by unfold Session.step; rw [hname])

/-- Giving a transaction up: its account goes, and nothing is committed. -/
theorem rollback (hc : c.Faithful initial) : (c.move (.step name .rollback)).Faithful initial := by
  rcases hc.account_cases name with ⟨-, hname⟩ | ⟨mode, own, -, hname⟩ | ⟨mode, -, hname⟩
  · exact hc.absent (by unfold Session.step; rw [hname])
  · rw [move_step (Session.step_rollback hname)]
    exact hc.leave hname
  · exact hc.absent (by unfold Session.step; rw [hname])

/-- Leaving a kept section: its account goes, and nothing is committed. -/
theorem release (hc : c.Faithful initial) : (c.move (.step name .release)).Faithful initial := by
  rcases hc.account_cases name with ⟨-, hname⟩ | ⟨mode, own, -, hname⟩ | ⟨mode, -, hname⟩
  · exact hc.absent (by unfold Session.step; rw [hname])
  · exact hc.absent (by unfold Session.step; rw [hname])
  · rw [move_step (Session.step_release hname)]
    exact hc.leave hname

/-- Beginning a transaction again under a kept section, or leaving the section if the store is
closed. -/
theorem reopen (hc : c.Faithful initial) : (c.move (.step name .reopen)).Faithful initial := by
  rcases hc.account_cases name with ⟨-, hname⟩ | ⟨mode, own, -, hname⟩ | ⟨mode, haccount, hname⟩
  · exact hc.absent (by unfold Session.step; rw [hname])
  · exact hc.absent (by unfold Session.step; rw [hname])
  · cases hclosed : c.session.store.closed with
    | true =>
      rw [move_step (Session.step_reopen_of_closed hname hclosed)]
      exact hc.leave hname
    | false =>
      rw [move_step (Session.step_reopen hname hclosed)]
      unfold Journal.record
      simp only [haccount]
      exact hc.hold (x := .working mode c.session.store.committed []) hname rfl rfl

/-- Dropping whatever a name stands for: its account goes, if it has one. -/
theorem drop (hc : c.Faithful initial) : (c.move (.step name .drop)).Faithful initial := by
  rw [move_step Session.step_drop]
  cases hname : c.session.holding? name with
  | none =>
    rw [Session.drop_of_none hname]
    exact hc.note hc.counted rfl hname (fun _ _ => rfl) nofun
  | some h =>
    rw [Session.drop_of_some hname]
    exact hc.leave hname

/-- Closing the store changes neither what is committed nor what names stand for. -/
theorem close (hc : c.Faithful initial) : (c.move .close).Faithful initial := by
  refine ⟨?_, hc.committed, hc.told, hc.current⟩
  cases hc.counted with
  | update name h hmode hholdings hup hviews => exact .update name h hmode hholdings hup hviews
  | views hnames hmode hup hviews => exact .views hnames hmode hup hviews

/-- Whatever happens, the journal stays faithful: one case for each kind of step, and closing the
store. -/
theorem move (hc : c.Faithful initial) (e : Session.Event) : (c.move e).Faithful initial := by
  cases e with
  | close => exact hc.close
  | step name st =>
    cases st with
    | begin mode => exact hc.begin mode
    | commit => exact hc.commit
    | release => exact hc.release
    | reopen => exact hc.reopen
    | rollback => exact hc.rollback
    | drop => exact hc.drop
    | perform op => exact hc.perform op
    | mode =>
      cases hname : c.session.holding? name with
      | none => exact hc.absent (by unfold Session.step; rw [hname])
      | some h =>
        have hstep : c.session.step name .mode = (.mode h.mode, c.session) := by
          unfold Session.step
          rw [hname]
        exact hc.same hstep fun _ => rfl

/-- All along a run the journal is faithful, by induction over the events. -/
theorem run (hc : c.Faithful initial) (events : List Session.Event) :
    (c.run events).Faithful initial := by
  induction events generalizing c with
  | nil => exact hc
  | cons e events ih => exact ih (hc.move e)

end Faithful

/-! ## Serial runs -/

/-- A session is serial with respect to its journal and what was committed at first. -/
structure Serial (initial : Database) (c : Chronicle) : Prop where
  /-- An update, or the section that it has kept, is open together with nothing else. -/
  alone : ∀ name h, c.session.holding? name = some h → h.mode = .update →
    c.session.holdings = [(name, h)]
  /-- Each name stands for what its account says: a transaction sees what was committed when it
  began or was reopened, with its own operations done. -/
  told : ∀ name, c.session.holding? name = (c.journal.accounts name).map Account.holding
  /-- That is what every operation in the transaction answers from. -/
  answers : ∀ name mode base own, c.journal.accounts name = some (.working mode base own) →
    ∀ op, (c.session.step name (.perform op)).1 =
      Session.tell (op.perform.run mode (replay mode own base)).1
  /-- What is committed is what the updates leave in the order of their commits. -/
  committed : c.session.store.committed = c.journal.outcome initial
  /-- While a name stands for something, open or kept, nothing that conflicts with it begins. -/
  guarded : ∀ name h, c.session.holding? name = some h → ∀ other mode,
    h.mode = .update ∨ mode = .update →
    c.session.step other (.begin mode) = (.blocked, c.session)
  /-- So nothing has been committed since an account began. -/
  current : ∀ name a, c.journal.accounts name = some a → a.base = c.session.store.committed
  /-- A transaction that is reopened starts from exactly what was committed. -/
  reopened : ∀ name mode base, c.journal.accounts name = some (.kept mode base) →
    c.session.store.closed = false →
    c.session.step name .reopen = (.done, c.session.hold name (.transaction ⟨mode, base⟩))
  /-- A view refuses every change, whether it has begun or was reopened. -/
  refuses : ∀ name base own, c.journal.accounts name = some (.working .view base own) →
    ∀ op, op.changes = true → (c.session.step name (.perform op)).1 = .failed .readOnly
  /-- Nothing that is done in a view changes what it sees or what is committed. -/
  unchanged : ∀ name base own, c.journal.accounts name = some (.working .view base own) →
    (∀ op, (c.session.step name (.perform op)).2 =
      c.session.hold name (.transaction ⟨.view, base⟩)) ∧
    (c.session.step name .commit).2.store = c.session.store

namespace Faithful

/-- The transaction of an account has what its operations make of what was committed. -/
theorem holding?_of_working (hc : c.Faithful initial) {mode : Mode} {base : Database}
    {own : List Operation} (h : c.journal.accounts name = some (.working mode base own)) :
    c.session.holding? name = some (.transaction ⟨mode, replay mode own base⟩) := by
  rw [hc.told name, h]
  rfl

/-- With a faithful journal a session is serial: all parts follow from the two agreeing. -/
theorem serial (hc : c.Faithful initial) : c.Serial initial where
  alone _ _ hname hmode := hc.counted.alone hname hmode
  told := hc.told
  answers name mode base own h op := by rw [Session.step_perform (hc.holding?_of_working h)]
  committed := hc.committed
  guarded name h hname other mode hconflict :=
    Session.step_begin_of_not_admits (hc.counted.not_admits hname hconflict)
  current := hc.current
  reopened name mode base h hopen := by
    have hname : c.session.holding? name = some (.section ⟨mode⟩) := by
      rw [hc.told name, h]
      rfl
    have hbase : base = c.session.store.committed := hc.current name _ h
    rw [Session.step_reopen hname hopen, hbase]
  refuses name base own h op hchanges := by
    rw [Session.step_perform (hc.holding?_of_working h), op.refused_perform hchanges]
    rfl
  unchanged name base own h := by
    have hname := hc.holding?_of_working h
    refine ⟨fun op => ?_, ?_⟩
    · rw [Session.step_perform hname, op.reads_perform, replay_view]
    · rw [Session.step_commit_view hname]
      rfl

end Faithful

/-- **Store transactions are serialisable under any interleaving.** Whatever happens to transactions
of a store under any names, one step after the other, the session is serial: updates are alone,
every transaction answers from what was committed when it began and its own operations, what is
committed are the updates in the order of their commits, a kept section keeps out what conflicts
with it until it is left or reopened, and views change nothing. -/
theorem serial_run (initial : Database) (events : List Session.Event) :
    ((opened initial).run events).Serial initial :=
  (Faithful.opened.run events).serial

/-- One update is committed and reopened, and then given up; another one waits until then. -/
example :
    let add := fun (n : UInt8) => Step.perform (.addCredential ⟨[n], "alice"⟩)
    let c := (opened .empty).run [.step "a" (.begin .update), .step "a" (add 1), .step "a" .commit,
      .step "b" (.begin .update), .step "a" .reopen, .step "a" (add 2), .step "a" .rollback,
      .step "b" (.begin .update), .step "b" (add 3), .step "b" .commit]
    (c.session.store.committed.rows .credentials).toList.map Prod.fst = [[1], [3]] ∧
      c.journal.commits.length = 2 := by
  decide +kernel

end Chronicle

end WireKeeper
