import WireKeeper.Proofs.Service.Runs
import WireKeeper.Proofs.Service.Transitions
import WireKeeper.Proofs.Store.Refusals

/-! # Calls on a database that may refuse

On a free store over any database each of the two calls is refused with nothing changed, is undone
after its commit, or is done, as on a sound one; but the database may refuse the undo too, and then
the commit stays. A call **withdraws** when the database takes the undo, should it come to one.

* `Reverts`, `Withdraws`: an undo that the database takes;
* `write_by_database`, `erase_by_database`: the store's part of a call;
* `AddResult`, `add_result`, `RemoveResult`, `remove_result`: calls that withdraw;
* `add_stranded`, `remove_stranded`: calls that do not. -/

namespace WireKeeper.Service

variable {s : Service} {store : Store} {name : String} {fresh : PrivateKey} {options : AddOptions}

/-! ## Undoing -/

/-- After the commit of a transaction, the section can be reopened and takes what **reverts** it. -/
def Reverts (t : Transaction) (store : Store) (revert : Access Unit) : Prop :=
  ∃ t₁ store₁ t₂, (t.commit store).1.reopen (t.commit store).2 = (.ok t₁, store₁) ∧
    t₁.run revert = (.ok (), t₂)

/-- A call **withdraws** if the database takes the undo of it, should its step at the controller
fail after the commit. -/
def Withdraws (s : Service) : Call → Prop
  | .add fresh name options => ∀ t store p t' staged e c, s.begin = .ok (t, store) →
    s.writeNew fresh name options t = (.ok p, t') →
    s.controller.stage (projection p) = .ok staged → s.controller.apply staged = (.error e, c) →
    Reverts t' store (Peers.remove name)
  | .remove name => ∀ t store p t' e c, s.begin = .ok (t, store) →
    eraseOld name t = (.ok p, t') → s.checkLive name = .ok () →
    s.controller.remove name = (.error e, c) → Reverts t' store (Peers.add p)
  | _ => True

/-- What reverts an update works on what the update left. -/
theorem Reverts.run {db : Database} {revert : Access Unit} (hopen : store.closed = false)
    (h : Reverts ⟨.update, db⟩ (store.enter .update) revert) :
    ∃ db', revert.run .update db = (.ok (), db') := by
  obtain ⟨t₁, store₁, t₂, hreopen, hrun⟩ := h
  rw [Store.reopen_commit hopen] at hreopen
  cases hreopen
  exact ⟨_, Prod.ext (Prod.mk.inj hrun).1 rfl⟩

/-- What the database takes reverts an update. -/
theorem reverts_of_run {db db' : Database} {revert : Access Unit} (hopen : store.closed = false)
    (h : revert.run .update db = (.ok (), db')) :
    Reverts ⟨.update, db⟩ (store.enter .update) revert :=
  ⟨_, _, _, Store.reopen_commit hopen db, run_eq h⟩

/-- An update begins on a free store that is open, with what is committed. -/
theorem begin_eq (hfree : s.store.free = true) (hopen : s.store.closed = false) :
    s.begin = .ok (⟨.update, s.store.committed⟩, s.store.enter .update) := by
  rw [begin, Store.begin_update hfree hopen]

/-- Giving up an update that began on a free store changes nothing. -/
theorem rolledBack (hfree : s.store.free = true) (db : Database) :
    { s with store := (⟨.update, db⟩ : Transaction).rollback (s.store.enter .update) } = s := by
  rw [Store.rollback_enter hfree]

/-! ## Adding -/

/-- Writing the record of a new client, by what the database says to the name: refused before an
address is chosen, refused after that, or written if there is an address. -/
theorem write_by_database (db : Database) (name : String) :
    (∃ e, ∀ (s : Service) fresh options,
      s.writeNew fresh name options ⟨.update, db⟩ = (.error e, ⟨.update, db⟩)) ∨
    (∃ e, ∀ (s : Service) fresh options,
      s.writeNew fresh name options ⟨.update, db⟩ =
        match s.chooseAddress options.address with
        | .error e' => (.error e', ⟨.update, db⟩)
        | .ok _ => (.error e, ⟨.update, db⟩)) ∨
    (∃ t, db.table .peers = some t) ∧ (db.rows .peers).get? (Peers.key name) = none ∧
      ∀ (s : Service) fresh options,
        s.writeNew fresh name options ⟨.update, db⟩ =
          match s.chooseAddress options.address with
          | .error e => (.error e, ⟨.update, db⟩)
          | .ok a =>
            let p := s.newPeer fresh name a options
            (.ok p, ⟨.update,
              db.setRows .peers ((db.rows .peers).insert (Peers.key name) p.encode)⟩) := by
  -- the database cannot be asked, the name is there, the row is refused, or it is written; only the
  -- last two come to an address
  rcases Peers.run_contains_cases name db with ⟨e, hcontains⟩ | hcontains
  · left
    refine ⟨.ofStore e, fun s fresh options => ?_⟩
    rw [writeNew, run_eq hcontains]
  · cases hthere : (db.rows .peers).contains (Peers.key name) with
    | true =>
      left
      refine ⟨.alreadyExists .wireGuard, fun s fresh options => ?_⟩
      rw [writeNew, run_eq hcontains, hthere]
    | false =>
      right
      rcases Peers.run_add_cases name db with ⟨e, hadd⟩ | ⟨htable, hnew, hadd⟩
      · left
        refine ⟨.ofStore e, fun s fresh options => ?_⟩
        rw [writeNew, run_eq hcontains, hthere]
        cases s.chooseAddress options.address with
        | error e' => rfl
        | ok a => simp only [run_eq (hadd (s.newPeer fresh name a options) rfl)]
      · right
        refine ⟨htable, hnew, fun s fresh options => ?_⟩
        rw [writeNew, run_eq hcontains, hthere]
        cases s.chooseAddress options.address with
        | error e' => rfl
        | ok a => simp only [run_eq (hadd (s.newPeer fresh name a options) rfl)]

/-- The service with other rows of peers, whatever the database blocks, and another controller. -/
def withRows (s : Service) (rows : Rows) (controller : Controller) : Service :=
  { s with
    store := s.store.withCommitted (s.store.committed.setRows .peers rows)
    controller := controller }

/-- The rows of peers after they were replaced are the new ones, if the bucket is there. -/
theorem peerRows_withRows (htable : ∃ t, s.store.committed.table .peers = some t) (rows : Rows)
    (c : Controller) : (s.withRows rows c).store.peerRows = rows :=
  Database.rows_setRows htable rows

/-- The service after a client was added, whatever the database blocks. -/
def enrolled (s : Service) (p : PeerIdentity) (controller : Controller) : Service :=
  { s.withRows (s.store.peerRows.insert (Peers.key p.name) p.encode) controller with
    cursor := Allocation.advance s.settings.address p.address s.cursor }

/-- The rows of peers after a client was added are those before and the record of the client. -/
theorem peerRows_enrolled (htable : ∃ t, s.store.committed.table .peers = some t)
    (p : PeerIdentity) (c : Controller) :
    (s.enrolled p c).store.peerRows = s.store.peerRows.insert (Peers.key p.name) p.encode :=
  peerRows_withRows htable _ c

/-- What comes of an addition that withdraws: it is refused, undone or done. -/
inductive AddResult (s : Service) (fresh : PrivateKey) (name : String) (options : AddOptions) :
    Except ServiceError Config.Client × Service → Prop where
  /-- Nothing has changed. -/
  | refused (e : ServiceError) : AddResult s fresh name options (.error e, s)
  /-- The step at the controller failed; its arm is gone. -/
  | undone (e : ServiceError) (c : Controller) (unchanged : c.config = s.controller.config) :
    AddResult s fresh name options (.error e, { s with controller := c })
  /-- The client is stored under a new name, and live under it. -/
  | added (a : Net) (config : Config.Server)
    (table : ∃ t, s.store.committed.table .peers = some t)
    (isNew : s.store.peerRows.get? (Peers.key name) = none)
    (chosen : s.chooseAddress options.address = .ok a)
    (loaded : s.controller.config = some config) (notLive : config.find? name = none) :
    AddResult s fresh name options
      (.ok (s.clientConfig (s.newPeer fresh name a options)),
        s.enrolled (s.newPeer fresh name a options)
          (s.controller.load { config with
            peers := config.peers ++ [projection (s.newPeer fresh name a options)] }))

/-- An undo that the database takes brings the store back as it was before the record was
written. -/
theorem undo_added (hfree : store.free = true) (hopen : store.closed = false)
    (hnew : (store.committed.rows .peers).get? (Peers.key name) = none) {value : Bytes}
    {db : Database} (htable : ∃ t, store.committed.table .peers = some t)
    (hdb : db = store.committed.setRows .peers
      ((store.committed.rows .peers).insert (Peers.key name) value))
    (hreverts : Reverts ⟨.update, db⟩ (store.enter .update) (Peers.remove name)) :
    undo ((⟨.update, db⟩ : Transaction).commit (store.enter .update)).1 (Peers.remove name)
      ((⟨.update, db⟩ : Transaction).commit (store.enter .update)).2 = store := by
  have hrows : db.rows .peers = (store.committed.rows .peers).insert (Peers.key name) value := by
    rw [hdb, Database.rows_setRows htable]
  obtain ⟨db', hrevert⟩ := hreverts.run hopen
  rcases Peers.run_remove_cases name db with ⟨e, hremove⟩ | ⟨value', -, hremove⟩
  · cases hremove.symm.trans hrevert
  · rw [undo_commit hfree hopen hremove, hrows, Rows.erase_insert hnew, hdb,
      Database.setRows_setRows, Database.setRows_rows, Store.withCommitted_committed]

/-- An addition that withdraws has one of its results, on any database. -/
theorem add_result (hfree : s.store.free = true) (hopen : s.store.closed = false)
    (fresh : PrivateKey) (name : String) (options : AddOptions)
    (hwithdraws : s.Withdraws (.add fresh name options)) :
    AddResult s fresh name options (s.add fresh name options) := by
  rw [add, begin_eq hfree hopen]
  rcases write_by_database s.store.committed name with
    ⟨e, hwrite⟩ | ⟨e, hwrite⟩ | ⟨htable, hnew, hwrite⟩
  · simp only [hwrite, rolledBack hfree]
    exact .refused e
  · simp only [hwrite]
    cases s.chooseAddress options.address with
    | error e' =>
      simp only [rolledBack hfree]
      exact .refused e'
    | ok a =>
      simp only [rolledBack hfree]
      exact .refused e
  · have hwrite := hwrite s fresh options
    cases hchoose : s.chooseAddress options.address with
    | error e' =>
      rw [hchoose] at hwrite
      simp only [hwrite, rolledBack hfree]
      exact .refused e'
    | ok a =>
      rw [hchoose] at hwrite
      simp only [hwrite]
      -- with an address and a record written, only the controller is left to refuse
      cases hstage : s.controller.stage (projection (s.newPeer fresh name a options)) with
      | error e =>
        simp only [rolledBack hfree]
        exact .refused _
      | ok staged =>
        obtain ⟨rfl, config, hconfig, hfind⟩ := Controller.of_stage_eq_ok hstage
        rcases Controller.apply_cases hconfig hfind with ⟨e, c, happly, hc⟩ | happly
        · -- the database takes the undo, since the addition withdraws
          have hreverts := hwithdraws _ _ _ _ _ _ _ (begin_eq hfree hopen) hwrite hstage happly
          simp only [happly, undo_added hfree hopen hnew htable rfl hreverts]
          exact .undone _ c hc
        · simp only [happly, Store.release_commit hfree]
          exact .added a config htable hnew hchoose hconfig hfind

/-! ## Removing -/

/-- Removing the record of a client, on any database: it is refused, or the record was there and was
read. -/
theorem erase_by_database (db : Database) (name : String) :
    (∃ e, eraseOld name ⟨.update, db⟩ = (.error e, ⟨.update, db⟩)) ∨
      ∃ p value, p.name = name ∧ (db.rows .peers).get? (Peers.key name) = some value ∧
        PeerIdentity.decode name value = .ok p ∧
        eraseOld name ⟨.update, db⟩ =
          (.ok p, ⟨.update, db.setRows .peers ((db.rows .peers).erase (Peers.key name))⟩) := by
  have hsnd : ((Peers.get name).run .update db).2 = db := Peers.run_get_snd
  rw [eraseOld]
  -- the record is read first, and what cannot be read is not removed
  cases hget : (Peers.get name).run .update db with
  | mk r db' =>
    rw [hget] at hsnd
    obtain rfl : db' = db := hsnd
    rw [run_eq hget]
    cases r with
    | error e => cases e <;> exact .inl ⟨_, rfl⟩
    | ok p =>
      obtain ⟨value, hvalue, hp⟩ := Peers.of_run_get hget
      rcases Peers.run_remove_cases name db' with ⟨e, hremove⟩ | ⟨-, -, hremove⟩
      · simp only [run_eq hremove]
        exact .inl ⟨_, rfl⟩
      · simp only [run_eq hremove]
        exact .inr ⟨p, value, (PeerIdentity.of_decode hp).1, hvalue, hp, rfl⟩

/-- What comes of a removal that withdraws: it is refused, undone or done. -/
inductive RemoveResult (s : Service) (name : String) : Except ServiceError Unit × Service → Prop
    where
  /-- Nothing has changed. -/
  | refused (e : ServiceError) : RemoveResult s name (.error e, s)
  /-- The step at the controller failed; its arm is gone, and the record was written anew. -/
  | undone (e : ServiceError) (c : Controller) (p : PeerIdentity) (value : Bytes)
    (name_eq : p.name = name) (stored : s.store.peerRows.get? (Peers.key name) = some value)
    (decoded : PeerIdentity.decode name value = .ok p)
    (unchanged : c.config = s.controller.config) :
    RemoveResult s name
      (.error e, s.withRows (s.store.peerRows.insert (Peers.key p.name) p.encode) c)
  /-- The client was stored and live, and is neither any more. -/
  | removed (p : PeerIdentity) (value : Bytes) (config : Config.Server)
    (stored : s.store.peerRows.get? (Peers.key name) = some value)
    (decoded : PeerIdentity.decode name value = .ok p)
    (loaded : s.controller.config = some config) (live : (config.find? name).isSome = true) :
    RemoveResult s name
      (.ok (), s.withRows (s.store.peerRows.erase (Peers.key name))
        (s.controller.load { config with peers := config.peers.eraseP fun q => q.name == name }))

/-- An undo that the database takes writes the record anew that was removed. -/
theorem undo_removed (hfree : store.free = true) (hopen : store.closed = false) {p : PeerIdentity}
    {db : Database} (htable : ∃ t, store.committed.table .peers = some t)
    (hdb : db = store.committed.setRows .peers
      ((store.committed.rows .peers).erase (Peers.key p.name)))
    (hreverts : Reverts ⟨.update, db⟩ (store.enter .update) (Peers.add p)) :
    undo ((⟨.update, db⟩ : Transaction).commit (store.enter .update)).1 (Peers.add p)
      ((⟨.update, db⟩ : Transaction).commit (store.enter .update)).2 =
        store.withCommitted (store.committed.setRows .peers
          ((store.committed.rows .peers).insert (Peers.key p.name) p.encode)) := by
  have hrows : db.rows .peers = (store.committed.rows .peers).erase (Peers.key p.name) := by
    rw [hdb, Database.rows_setRows htable]
  obtain ⟨db', hrevert⟩ := hreverts.run hopen
  rcases Peers.run_add_cases p.name db with ⟨e, hadd⟩ | ⟨-, -, hadd⟩
  · cases (hadd p rfl).symm.trans hrevert
  · rw [undo_commit hfree hopen (hadd p rfl), hrows, Rows.insert_erase, hdb,
      Database.setRows_setRows]

/-- A removal that withdraws has one of its results, on any database. -/
theorem remove_result (hfree : s.store.free = true) (hopen : s.store.closed = false)
    (name : String) (hwithdraws : s.Withdraws (.remove name)) :
    RemoveResult s name (s.remove name) := by
  rw [remove, begin_eq hfree hopen]
  rcases erase_by_database s.store.committed name with
    ⟨e, herase⟩ | ⟨p, value, hname, hget, hp, herase⟩
  · simp only [herase, rolledBack hfree]
    exact .refused e
  · simp only [herase]
    cases hlive : s.checkLive name with
    | error e =>
      simp only [rolledBack hfree]
      exact .refused e
    | ok u =>
      obtain ⟨config, hconfig, hfind⟩ := of_checkLive hlive
      rcases Controller.remove_cases hconfig hfind with ⟨e, c, hremove, hc⟩ | hremove
      -- the step at the controller failed, and the database takes the undo
      · have hreverts := hwithdraws _ _ _ _ _ _ (begin_eq hfree hopen) herase hlive hremove
        subst hname
        simp only [hremove,
          undo_removed hfree hopen (Database.exists_table_of_get? hget) rfl hreverts]
        exact .undone _ c p value rfl hget hp hc
      · simp only [hremove, Store.release_commit hfree]
        exact .removed p value config hget hp hconfig hfind

/-! ## Undos that are refused -/

/-- When the database does not take an undo, the commit stays, and the section is free again. -/
theorem undo_of_not_reverts (hfree : store.free = true) (hopen : store.closed = false)
    {db : Database} {revert : Access Unit}
    (h : ¬Reverts ⟨.update, db⟩ (store.enter .update) revert) :
    undo ((⟨.update, db⟩ : Transaction).commit (store.enter .update)).1 revert
      ((⟨.update, db⟩ : Transaction).commit (store.enter .update)).2 =
        store.withCommitted db := by
  rw [undo, Store.reopen_commit hopen]
  cases hrun : revert.run .update db with
  | mk r db' =>
    cases r with
    | ok u => exact absurd (reverts_of_run hopen hrun) h
    | error e =>
      simp only [run_eq hrun]
      exact Store.rollback_enter (s := store.withCommitted db) hfree db'

/-- An addition that does not withdraw has failed, and its record stays: the client is stored, and
not live. -/
theorem add_stranded (hfree : s.store.free = true) (hopen : s.store.closed = false)
    (h : ¬s.Withdraws (.add fresh name options)) :
    ∃ a e c, (∃ t, s.store.committed.table .peers = some t) ∧
      s.store.peerRows.get? (Peers.key name) = none ∧
      s.add fresh name options = (.error e,
        s.withRows (s.store.peerRows.insert (Peers.key name)
          (s.newPeer fresh name a options).encode) c) := by
  simp only [Withdraws, Classical.not_forall] at h
  obtain ⟨t, store, p, t', staged, e, c, hbegin, hwrite, hstage, happly, hnot⟩ := h
  -- the addition came to an undo, so its record was written
  cases (begin_eq hfree hopen).symm.trans hbegin
  rcases write_by_database s.store.committed name with
    ⟨e', hrefused⟩ | ⟨e', hrefused⟩ | ⟨htable, hnew, hwritten⟩
  · cases (hrefused s fresh options).symm.trans hwrite
  · have hwrite' := (hrefused s fresh options).symm.trans hwrite
    split at hwrite' <;> cases hwrite'
  · have hwrite' := (hwritten s fresh options).symm.trans hwrite
    split at hwrite'
    · cases hwrite'
    · next a _ =>
      obtain ⟨hp, ht⟩ := Prod.mk.inj hwrite'
      refine ⟨a, .ofInterface e, c, htable, hnew, ?_⟩
      rw [add, begin_eq hfree hopen]
      simp only [hwrite, hstage, happly]
      rw [← ht] at hnot ⊢
      rw [undo_of_not_reverts hfree hopen hnot]
      rfl

/-- A removal that does not withdraw has failed, but its record is gone: the client is live, and not
stored. -/
theorem remove_stranded (hfree : s.store.free = true) (hopen : s.store.closed = false)
    (h : ¬s.Withdraws (.remove name)) :
    ∃ e c, (∃ t, s.store.committed.table .peers = some t) ∧
      s.remove name = (.error e, s.withRows (s.store.peerRows.erase (Peers.key name)) c) := by
  simp only [Withdraws, Classical.not_forall] at h
  obtain ⟨t, store, p, t', e, c, hbegin, herase, hlive, hremove, hnot⟩ := h
  -- the removal came to an undo, so its record was removed
  cases (begin_eq hfree hopen).symm.trans hbegin
  rcases erase_by_database s.store.committed name with
    ⟨e', hrefused⟩ | ⟨p', value, -, hget, -, herased⟩
  · cases hrefused.symm.trans herase
  · obtain ⟨-, ht⟩ := Prod.mk.inj (herased.symm.trans herase)
    refine ⟨.ofInterface e, c, Database.exists_table_of_get? hget, ?_⟩
    rw [remove, begin_eq hfree hopen]
    simp only [herase, hlive, hremove]
    rw [← ht] at hnot ⊢
    rw [undo_of_not_reverts hfree hopen hnot]
    rfl

/-- An addition that succeeds comes to no undo, so it withdraws. -/
theorem withdraws_of_add_eq_ok {c : Config.Client} {f : Service}
    (h : s.add fresh name options = (.ok c, f)) : s.Withdraws (.add fresh name options) := by
  intro t store p t' staged e c' hbegin hwrite hstage happly
  rw [add, hbegin] at h
  simp only [hwrite, hstage, happly] at h
  cases h

/-! ## A database that refuses nothing -/

/-- A sound database takes every undo, so every call withdraws on it. -/
theorem withdraws_of_sound (hsound : s.store.committed.Sound) (hfree : s.store.free = true)
    (hopen : s.store.closed = false) (c : Call) : s.Withdraws c := by
  cases c with
  | get | infos | arm => trivial
  | add fresh name options =>
    -- the record that was written is there to be removed
    have hthere : ∀ value, ((s.store.committed.withRows .peers
        (s.store.peerRows.insert (Peers.key name) value)).rows .peers).get? (Peers.key name) =
          some value := fun value => by
      rw [Database.rows_withRows, if_pos rfl, Rows.get?_insert_self]
    intro t store p t' staged e c hbegin hwrite _ _
    cases (begin_eq hfree hopen).symm.trans hbegin
    rw [writeNew_eq hsound] at hwrite
    split at hwrite
    · cases hwrite
    · split at hwrite
      · cases hwrite
      · cases hwrite
        exact reverts_of_run hopen (Peers.run_remove (hsound.withRows .peers _) (hthere _))
  | remove name =>
    intro t store p t' e c hbegin herase _ _
    cases (begin_eq hfree hopen).symm.trans hbegin
    rcases eraseOld_eq hsound name with ⟨e, h⟩ | ⟨p', value, hname, -, -, h⟩
    · cases h.symm.trans herase
    · cases h.symm.trans herase
      have hgone : ((s.store.committed.withRows .peers
          (s.store.peerRows.erase (Peers.key name))).rows .peers).get? (Peers.key p.name) =
            none := by
        rw [Database.rows_withRows, if_pos rfl, hname, Rows.get?_erase_self]
      exact reverts_of_run hopen (Peers.run_add (hsound.withRows .peers _) hgone)

end WireKeeper.Service
