import WireKeeper.Proofs.Store.Access
import WireKeeper.Proofs.Store.Peers
import WireKeeper.Store.Session

/-! # Transactions on a free store

A free store admits an update, which works on a copy of what is committed. Giving the update up
brings the store back; committing it and leaving its section replaces what is committed, and nothing
else. The same holds of an update begun again under a kept section.

* `begin_update`, `rollback_enter`, `release_commit`, `reopen_commit`: the life of an update;
* `update_of_free`, `update_eq_ok`, `view_eq_ok`: whole updates and views;
* `eq_of_update_eq_error`: an update that fails, whatever the state of the store;
* `peerRows`, `withPeers`: what is committed about peers. -/

namespace WireKeeper

namespace Store

variable {s : Store} {α : Type} {a : Access α}

/-- The store with other committed contents; who is inside the section stays. -/
def withCommitted (s : Store) (db : Database) : Store := { s with committed := db }

/-- A store is free when nobody is inside the section, neither an update nor a view. -/
theorem free_iff : s.free = true ↔ s.updating = false ∧ s.views = 0 := by
  rw [free, admits, Bool.and_eq_true, Bool.not_eq_true', beq_iff_eq]

/-- New contents are what is committed. -/
@[simp] theorem committed_withCommitted (db : Database) : (s.withCommitted db).committed = db := rfl

/-- The same contents leave a store as it is. -/
@[simp] theorem withCommitted_committed : s.withCommitted s.committed = s := rfl

/-! ## The life of an update -/

/-- A store that is not free lets an update wait. -/
theorem begin_update_of_not_free (h : s.free = false) : s.begin .update = .blocked :=
  if_neg fun hfree => Bool.false_ne_true (h.symm.trans hfree)

/-- A closed store begins no update. -/
theorem begin_update_of_closed (hfree : s.free = true) (hclosed : s.closed = true) :
    s.begin .update = .failed .database := by
  refine (if_pos hfree).trans ?_
  rw [start, if_pos hclosed]

/-- An update on a free store works on what is committed, and is inside the section. -/
theorem begin_update (hfree : s.free = true) (hopen : s.closed = false) :
    s.begin .update = .begun ⟨.update, s.committed⟩ (s.enter .update) := by
  refine (if_pos hfree).trans ?_
  rw [start, if_neg fun hclosed => Bool.false_ne_true (hopen.symm.trans hclosed)]

/-- Giving an update up brings a free store back, whatever the update has done. -/
theorem rollback_enter (hfree : s.free = true) (db : Database) :
    (⟨.update, db⟩ : Transaction).rollback (s.enter .update) = s := by
  obtain ⟨committed, views, updating, closed⟩ := s
  cases (free_iff.1 hfree).1
  rfl

/-- Committing an update and leaving its section replaces what is committed, and nothing else. -/
theorem release_commit (hfree : s.free = true) (db : Database) :
    ((⟨.update, db⟩ : Transaction).commit (s.enter .update)).1.release
      ((⟨.update, db⟩ : Transaction).commit (s.enter .update)).2 = s.withCommitted db := by
  obtain ⟨committed, views, updating, closed⟩ := s
  cases (free_iff.1 hfree).1
  rfl

/-- An update begun again under a kept section works on what was committed there. -/
theorem reopen_commit (hopen : s.closed = false) (db : Database) :
    ((⟨.update, db⟩ : Transaction).commit (s.enter .update)).1.reopen
        ((⟨.update, db⟩ : Transaction).commit (s.enter .update)).2 =
      (.ok ⟨.update, db⟩, (s.withCommitted db).enter .update) := by
  obtain ⟨committed, views, updating, closed⟩ := s
  cases hopen
  rfl

/-! ## Whole transactions -/

/-- An update on a free store: what it left is committed if it succeeds, and the store is as before
if it fails. -/
theorem update_of_free (hfree : s.free = true) (hopen : s.closed = false) :
    s.update a =
      match a.run .update s.committed with
      | (.ok x, db) => (.ok x, s.withCommitted db)
      | (.error e, _) => (.error e, s) := by
  rw [update, begin_update hfree hopen]
  simp only [Transaction.run]
  cases a.run .update s.committed with
  | mk r db =>
    cases r with
    | ok x => exact Prod.ext rfl (release_commit hfree db)
    | error e => exact Prod.ext rfl (rollback_enter hfree db)

/-- An update that succeeds: the section was free, and what is committed is replaced by what the
access left. -/
theorem update_eq_ok {x : α} {s' : Store} :
    s.update a = (.ok x, s') ↔
      s.free = true ∧ s.closed = false ∧
        ∃ db, a.run .update s.committed = (.ok x, db) ∧ s' = s.withCommitted db := by
  constructor
  · -- a failure gives another result, so that the update must have begun and been committed
    intro h
    cases hfree : s.free with
    | false =>
      rw [update, begin_update_of_not_free hfree] at h
      cases h
    | true =>
      cases hclosed : s.closed with
      | true =>
        rw [update, begin_update_of_closed hfree hclosed] at h
        cases h
      | false =>
        rw [update_of_free hfree hclosed] at h
        split at h
        · next hrun =>
          cases h
          exact ⟨rfl, rfl, _, hrun, rfl⟩
        · cases h
  · rintro ⟨hfree, hopen, db, hrun, rfl⟩
    rw [update_of_free hfree hopen, hrun]

/-- An update that fails leaves the store as it was, whatever the reason. -/
theorem eq_of_update_eq_error {e : StoreError} {s' : Store} (h : s.update a = (.error e, s')) :
    s' = s := by
  cases hfree : s.free with
  | false =>
    rw [update, begin_update_of_not_free hfree] at h
    exact (Prod.mk.inj h).2.symm
  | true =>
    cases hclosed : s.closed with
    | true =>
      rw [update, begin_update_of_closed hfree hclosed] at h
      exact (Prod.mk.inj h).2.symm
    | false =>
      -- the access itself has failed, and what it did is given up
      rw [update_of_free hfree hclosed] at h
      split at h
      · cases h
      · exact (Prod.mk.inj h).2.symm

/-- A view that succeeds reads what is committed: no update is inside, and the store is open. -/
theorem view_eq_ok {x : α} :
    s.view a = .ok x ↔
      s.updating = false ∧ s.closed = false ∧ (a.run .view s.committed).1 = .ok x := by
  obtain ⟨committed, views, updating, closed⟩ := s
  -- the flags decide whether the view begins, so both sides are evaluated for each of them
  cases updating with
  | true =>
    constructor
    · intro h
      cases h
    · rintro ⟨h, -⟩
      cases h
  | false =>
    cases closed with
    | true =>
      constructor
      · intro h
        cases h
      · rintro ⟨-, h, -⟩
        cases h
    | false => exact ⟨fun h => ⟨rfl, rfl, h⟩, fun h => h.2.2⟩

/-! ## Peers -/

/-- The committed rows of the peers. -/
def peerRows (s : Store) : Rows := s.committed.rows .peers

/-- The store with other committed rows of peers; the other buckets keep theirs. -/
def withPeers (s : Store) (rows : Rows) : Store :=
  s.withCommitted (s.committed.withRows .peers rows)

/-- New rows of peers are what is committed. -/
@[simp] theorem peerRows_withPeers (rows : Rows) : (s.withPeers rows).peerRows = rows := by
  rw [peerRows, withPeers, committed_withCommitted, Database.rows_withRows, if_pos rfl]

/-- The same rows leave a sound store as it is. -/
theorem withPeers_peerRows (hsound : s.committed.Sound) : s.withPeers s.peerRows = s := by
  rw [withPeers, peerRows, hsound.withRows_rows, withCommitted_committed]

/-- The peer that a view of a free store gives is the one that the rows hold under the name. -/
theorem view_get_eq_ok (hsound : s.committed.Sound) (hfree : s.free = true)
    (hopen : s.closed = false) {name : String} {p : PeerIdentity} :
    s.view (Peers.get name) = .ok p ↔ p.name = name ∧ s.peerRows.Holds p := by
  rw [view_eq_ok, Peers.run_get hsound]
  constructor
  · rintro ⟨-, -, h⟩
    split at h
    · next hget => exact Rows.holds_of_decode hget h
    · cases h
  · rintro ⟨rfl, value, hget, hp⟩
    refine ⟨(free_iff.1 hfree).1, hopen, ?_⟩
    rw [show (s.committed.rows .peers).get? (Peers.key p.name) = some value from hget]
    exact hp

/-- Whether a peer of a name is stored, as a view of a free store tells. -/
theorem view_contains_eq_ok (hsound : s.committed.Sound) (hfree : s.free = true)
    (hopen : s.closed = false) {name : String} {b : Bool} :
    s.view (Peers.contains name) = .ok b ↔ s.peerRows.contains (Peers.key name) = b := by
  rw [view_eq_ok, Peers.run_contains hsound]
  exact ⟨fun h => Except.ok.inj h.2.2, fun h => ⟨(free_iff.1 hfree).1, hopen, congrArg _ h⟩⟩

/-- A peer that was read is in the rows, on any store. -/
theorem of_view_get {name : String} {p : PeerIdentity} (h : s.view (Peers.get name) = .ok p) :
    p.name = name ∧ s.peerRows.Holds p := by
  obtain ⟨-, -, h⟩ := view_eq_ok.1 h
  obtain ⟨value, hget, hp⟩ := Peers.of_run_get (Prod.ext h rfl)
  exact Rows.holds_of_decode hget hp

end Store

end WireKeeper
