import WireKeeper.Proofs.Store.Transactions
import WireKeeper.Store.Batch

/-! # A group of calls as separate updates

The calls of a group share one update, and a mark stands before each of them. A call that fails goes
back to its own mark and to nothing else, so the group leaves what the calls leave one after the
other, each in an update of its own that is committed or given up by itself.

* `BatchProgram.access`: a program as the work of an update of its own;
* `Batch.EndsFrom`: programs of which none breaks off where it is run;
* `Batch.runEach`: programs in updates of their own;
* `Batch.runMarkedAll_eq`: a group between marks, call by call;
* `Batch.run_singleton`: a batch of one call;
* `Batch.runGroup_eq_runEach`: a group is the updates of its calls; a failure leaves no trace. -/

namespace WireKeeper

namespace BatchProgram

/-- A program as the work of a transaction of its own; breaking off is a failure there. -/
def access (p : BatchProgram) : Access Unit := fun _ db =>
  (p db).getD (.error Batch.dropped, db)

/-- The work of a transaction gives and leaves what the program does, as long as that ends. -/
theorem run_access {p : BatchProgram} {mode : Mode} {db db' : Database}
    {r : Except StoreError Unit} (h : p db = some (r, db')) :
    p.access.run mode db = (r, db') :=
  congrArg (Option.getD · _) h

end BatchProgram

namespace Batch

variable {programs front back : List BatchProgram} {p : BatchProgram} {s : Store}

/-- What stays of a program that found one database and left another: all of it if it succeeded,
nothing if it failed. -/
def kept (r : Except StoreError Unit) (found left : Database) : Database :=
  match r with
  | .ok _ => left
  | .error _ => found

/-- Run one after the other from a database, each of the programs ends there: it succeeds or fails
and does not break off. What a program found is what stays of those before it. -/
def EndsFrom : List BatchProgram → Database → Prop
  | [], _ => True
  | p :: ps, db => ∃ r db', p db = some (r, db') ∧ EndsFrom ps (kept r db db')

/-- Whether programs end can be found out by running them one after the other. -/
instance decidableEndsFrom :
    (ps : List BatchProgram) → (db : Database) → Decidable (EndsFrom ps db)
  | [], _ => .isTrue trivial
  | p :: ps, db =>
    match h : p db with
    | none => .isFalse fun ⟨_, _, hp, _⟩ => nomatch h.symm.trans hp
    | some (r, db') =>
      match decidableEndsFrom ps (kept r db db') with
      | .isTrue hrest => .isTrue ⟨r, db', h, hrest⟩
      | .isFalse hrest => .isFalse fun ⟨_, _, hp, hps⟩ => by
        cases h.symm.trans hp
        exact hrest hps

/-! ## Separate updates -/

/-- Run programs one after the other, each in an update of its own; a failure stops none of those
behind. -/
def runEach : List BatchProgram → Store → List (Except StoreError Unit) × Store
  | [], s => ([], s)
  | p :: ps, s =>
    let (result, s) := s.update p.access
    let (results, s) := runEach ps s
    (result :: results, s)

/-- The first program has its update, and the others go on from the store that it left. -/
theorem runEach_cons :
    runEach (p :: programs) s =
      ((s.update p.access).1 :: (runEach programs (s.update p.access).2).1,
        (runEach programs (s.update p.access).2).2) := rfl

/-- Separate updates go on from what the ones before them left, and their results stand behind
those. -/
theorem runEach_append :
    runEach (front ++ back) s =
      ((runEach front s).1 ++ (runEach back (runEach front s).2).1,
        (runEach back (runEach front s).2).2) := by
  induction front generalizing s with
  | nil => rfl
  | cons p ps ih => rw [List.cons_append, runEach_cons, runEach_cons, ih, List.cons_append]

/-- Each program has a result, whether it fails or not. -/
theorem length_runEach (programs : List BatchProgram) (s : Store) :
    (runEach programs s).1.length = programs.length := by
  induction programs generalizing s with
  | nil => rfl
  | cons p ps ih => exact congrArg (· + 1) (ih _)

/-- An update of its own commits what stays of a program, `kept r s.committed db`. -/
theorem update_access (hfree : s.free = true) (hopen : s.closed = false)
    {r : Except StoreError Unit} {db : Database} (h : p s.committed = some (r, db)) :
    s.update p.access = (r, s.withCommitted (kept r s.committed db)) := by
  rw [Store.update_of_free hfree hopen, BatchProgram.run_access h]
  cases r <;> rfl

/-- Separate updates of programs that end replace what is committed, and nothing else: the store is
free and open afterwards. -/
theorem exists_runEach (hends : EndsFrom programs s.committed) (hfree : s.free = true)
    (hopen : s.closed = false) :
    ∃ results db, runEach programs s = (results, s.withCommitted db) := by
  induction programs generalizing s with
  | nil => exact ⟨[], s.committed, rfl⟩
  | cons p ps ih =>
    obtain ⟨r, db, hp, hps⟩ := hends
    obtain ⟨results, db', hrest⟩ :=
      ih (s := s.withCommitted (kept r s.committed db)) hps hfree hopen
    refine ⟨r :: results, db', ?_⟩
    rw [runEach_cons, update_access hfree hopen hp, hrest]
    rfl

/-- Programs end if and only if the first ones end and the others end on what the first
ones left. -/
theorem endsFrom_append (hfree : s.free = true) (hopen : s.closed = false) :
    EndsFrom (front ++ back) s.committed ↔
      EndsFrom front s.committed ∧ EndsFrom back (runEach front s).2.committed := by
  induction front generalizing s with
  | nil => exact ⟨fun hback => ⟨trivial, hback⟩, And.right⟩
  | cons p ps ih =>
    -- the program in front leads to the same database on both sides
    have hnext {r : Except StoreError Unit} {db : Database} (hp : p s.committed = some (r, db)) :
        EndsFrom (ps ++ back) (kept r s.committed db) ↔
          EndsFrom ps (kept r s.committed db) ∧
            EndsFrom back (runEach (p :: ps) s).2.committed := by
      rw [runEach_cons, update_access hfree hopen hp]
      exact ih (s := s.withCommitted (kept r s.committed db)) hfree hopen
    constructor
    · rintro ⟨r, db, hp, hrest⟩
      obtain ⟨hps, hback⟩ := (hnext hp).1 hrest
      exact ⟨⟨r, db, hp, hps⟩, hback⟩
    · rintro ⟨⟨r, db, hp, hps⟩, hback⟩
      exact ⟨r, db, hp, (hnext hp).2 ⟨hps, hback⟩⟩

/-! ## Marks -/

/-- Between its mark and the release of it, a program leaves what stays of it, and the marks that
were set before. So it cannot go back further than to its own mark. -/
theorem runMarked_eq {m : MarkedWork} {r : Except StoreError Unit} {db : Database}
    (h : p m.work = some (r, db)) :
    runMarked p m = some (r, ⟨kept r m.work db, m.marks⟩) := by
  rw [runMarked]
  simp only [MarkedWork.mark, h]
  cases r <;> rfl

/-- A group goes on from what its first program left, and the result of that stands in front. -/
theorem runMarkedAll_cons {m m' m'' : MarkedWork} {r : Except StoreError Unit}
    {results : List (Except StoreError Unit)} (hfirst : runMarked p m = some (r, m'))
    (hrest : runMarkedAll programs m' = some (results, m'')) :
    runMarkedAll (p :: programs) m = some (r :: results, m'') := by
  rw [runMarkedAll, hfirst]
  simp only [hrest]

/-- Programs between marks give and leave what they give and leave in separate updates, whatever
marks were set before them. -/
theorem runMarkedAll_eq (hends : EndsFrom programs s.committed) (hfree : s.free = true)
    (hopen : s.closed = false) (marks : List Database) :
    runMarkedAll programs ⟨s.committed, marks⟩ =
      some ((runEach programs s).1, ⟨(runEach programs s).2.committed, marks⟩) := by
  induction programs generalizing s with
  | nil => rfl
  | cons p ps ih =>
    obtain ⟨r, db, hp, hps⟩ := hends
    have hmarked := runMarked_eq (m := ⟨s.committed, marks⟩) hp
    -- an update of its own commits what the group goes on with
    rw [runEach_cons, update_access hfree hopen hp]
    exact runMarkedAll_cons hmarked
      (ih (s := s.withCommitted (kept r s.committed db)) hps hfree hopen)

/-! ## Groups -/

/-- A group is the updates of its programs: the one commit at its end commits what all of
theirs do. -/
theorem runGroup_eq (hends : EndsFrom programs s.committed) (hfree : s.free = true)
    (hopen : s.closed = false) : runGroup programs s = runEach programs s := by
  have hgroup := runMarkedAll_eq hends hfree hopen []
  obtain ⟨results, db, heach⟩ := exists_runEach hends hfree hopen
  -- both end on the same database, which the group commits all at once
  rw [heach] at hgroup ⊢
  rw [runGroup, Store.begin_update hfree hopen]
  simp only [hgroup]
  exact Prod.ext rfl (Store.release_commit hfree db)

/-- A batch of one call that ends is an update of its own. -/
theorem run_singleton {call : Call} (hfree : s.free = true) (hopen : s.closed = false)
    {r : Except StoreError Unit} {db : Database}
    (h : Call.perform call s.committed = some (r, db)) :
    run [call] s = ([r], s.withCommitted (kept r s.committed db)) := by
  have hgroups : BatchQueue.groups ([call].map Call.perform) = [[Call.perform call]] := rfl
  have hends : EndsFrom [Call.perform call] s.committed := ⟨r, db, h, trivial⟩
  have hgroup : runGroup [Call.perform call] s =
      ([r], s.withCommitted (kept r s.committed db)) := by
    rw [runGroup_eq hends hfree hopen, runEach_cons, update_access hfree hopen h]
    rfl
  rw [run, hgroups, runGroups, hgroup]
  rfl

/-- A program that fails leaves no trace in separate updates: the others still end without it, and
give and leave what they give and leave with it. -/
theorem runEach_without_failed (hends : EndsFrom (front ++ p :: back) s.committed)
    (hfree : s.free = true) (hopen : s.closed = false) {e : StoreError}
    (hfailed : (runEach (front ++ p :: back) s).1[front.length]? = some (.error e)) :
    EndsFrom (front ++ back) s.committed ∧
      runEach (front ++ back) s =
        ((runEach (front ++ p :: back) s).1.eraseIdx front.length,
          (runEach (front ++ p :: back) s).2) := by
  obtain ⟨hfirst, hrest⟩ := (endsFrom_append hfree hopen).1 hends
  obtain ⟨results, db, hfront⟩ := exists_runEach hfirst hfree hopen
  have hlength : results.length = front.length := by
    rw [← length_runEach front s, hfront]
  rw [hfront] at hrest
  obtain ⟨r, db', hp, hback⟩ := hrest
  have hupdate := update_access (s := s.withCommitted db) hfree hopen hp
  have hwith : runEach (front ++ p :: back) s =
      (results ++ r :: (runEach back (s.withCommitted (kept r db db'))).1,
        (runEach back (s.withCommitted (kept r db db'))).2) := by
    rw [runEach_append, hfront]
    simp only [runEach_cons, hupdate]
    rfl
  have hwithout : runEach (front ++ back) s =
      (results ++ (runEach back (s.withCommitted db)).1,
        (runEach back (s.withCommitted db)).2) := by
    rw [runEach_append, hfront]
  rw [hwith] at hfailed ⊢
  rw [hwithout]
  -- the failure stands at the place of the program, whose update is given up
  rw [List.getElem?_append_right (le_of_eq hlength), hlength, Nat.sub_self] at hfailed
  obtain rfl : r = .error e := Option.some.inj hfailed
  refine ⟨(endsFrom_append hfree hopen).2 ⟨hfirst, ?_⟩, ?_⟩
  · rw [hfront]
    exact hback
  · rw [List.eraseIdx_append_of_length_le (le_of_eq hlength), hlength, Nat.sub_self]
    rfl

/-- **A batch is equivalent to separate transactions.** A group of programs that all end, each on
what those before it left, is run on a free store that is open. It gives each of them the same
result and leaves the same store as running them one after the other, each in an update of its own
that is committed if it succeeds and given up if it fails. In particular a program that fails leaves
no trace, wherever it stands in the group: without it the others have the same results and leave the
same store. -/
theorem runGroup_eq_runEach (hends : EndsFrom programs s.committed) (hfree : s.free = true)
    (hopen : s.closed = false) :
    runGroup programs s = runEach programs s ∧
      ∀ front p back e, programs = front ++ p :: back →
        (runGroup programs s).1[front.length]? = some (.error e) →
        runGroup (front ++ back) s =
          ((runGroup programs s).1.eraseIdx front.length, (runGroup programs s).2) := by
  refine ⟨runGroup_eq hends hfree hopen, ?_⟩
  rintro front p back e rfl hfailed
  rw [runGroup_eq hends hfree hopen] at hfailed ⊢
  obtain ⟨hothers, hwithout⟩ := runEach_without_failed hends hfree hopen hfailed
  rw [runGroup_eq hothers hfree hopen]
  exact hwithout

/-- A call that adds a credential, and succeeds. -/
def adding : Call := [⟨.operation (.addCredential ⟨[1], "alice"⟩), false⟩]

/-- A call that overwrites the credential, removes it and fails. -/
def overwriting : Call :=
  [⟨.operation (.setCredential ⟨[1], "mallory"⟩), false⟩,
    ⟨.operation (.removeCredential [1]), false⟩, ⟨.fail "changed my mind", false⟩]

/-- A call that tries to add the credential once more, passes over the failure and adds another. -/
def addingMore : Call :=
  [⟨.operation (.addCredential ⟨[1], "bob"⟩), true⟩,
    ⟨.operation (.addCredential ⟨[2], "bob"⟩), false⟩]

/-- The call in the middle fails and has left no trace: the credential of the call before it is
there for the call after it. -/
theorem runGroup_overwriting :
    let programs := [adding, overwriting, addingMore].map Call.perform
    runGroup programs {} = runEach programs {} ∧
      (runGroup programs {}).1 = [.ok (), .error (.internal "changed my mind"), .ok ()] ∧
      runGroup ([adding, addingMore].map Call.perform) {} =
        ([.ok (), .ok ()], (runGroup programs {}).2) ∧
      ((runGroup programs {}).2.committed.rows .credentials).toList =
        [([1], Credential.encode ⟨[1], "alice"⟩), ([2], Credential.encode ⟨[2], "bob"⟩)] := by
  intro programs
  have hends : EndsFrom programs Database.empty := by decide +kernel
  have hgroup := runGroup_eq_runEach hends (s := {}) rfl rfl
  have hresults : (runGroup programs {}).1 =
      [.ok (), .error (.internal "changed my mind"), .ok ()] := by decide +kernel
  have hwithout := hgroup.2 [Call.perform adding] (Call.perform overwriting)
    [Call.perform addingMore] _ rfl (by rw [hresults]; rfl)
  rw [hresults] at hwithout
  exact ⟨hgroup.1, hresults, hwithout, by decide +kernel⟩

end Batch

end WireKeeper
