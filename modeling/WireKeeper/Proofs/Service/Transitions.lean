import WireKeeper.Proofs.Interface.Controller
import WireKeeper.Proofs.Store.Transactions
import WireKeeper.Service.Clients

/-! # What adding and removing a client can do

On a free store over a sound database, each of the two calls has one of three outcomes: it is
**refused** and nothing changes; it is **undone** after its commit, and nothing changes but the arms
of the controller; or it is done, in the store and at the controller.

* `AddOutcome`, `add_outcome`: adding;
* `RemoveOutcome`, `remove_outcome`: removing. -/

namespace WireKeeper

namespace Service

variable {s : Service} {name : String}

/-! ## The parts of a call -/

/-- A transaction for updates goes on with the result and the database that an access leaves. -/
theorem run_eq {α : Type} {a : Access α} {db db' : Database} {r : Except StoreError α}
    (h : a.run .update db = (r, db')) :
    (⟨.update, db⟩ : Transaction).run a = (r, ⟨.update, db'⟩) := by
  rw [Transaction.run, h]

/-- Undoing a commit on a free and open store, when the access that takes it back succeeds: the
store then has what that access leaves committed. -/
theorem undo_commit {store : Store} (hfree : store.free = true) (hopen : store.closed = false)
    {db db' : Database} {revert : Access Unit} (hrevert : revert.run .update db = (.ok (), db')) :
    undo ((⟨.update, db⟩ : Transaction).commit (store.enter .update)).1 revert
      ((⟨.update, db⟩ : Transaction).commit (store.enter .update)).2 = store.withCommitted db' := by
  rw [undo, Store.reopen_commit hopen]
  simp only [run_eq hrevert]
  exact Store.release_commit hfree db'

/-! ## Adding -/

variable {fresh : PrivateKey} {options : AddOptions}

/-- Writing the record of a new client, on a sound database: the name must be new, and an address
must be found for it. Then there is one row more, and otherwise none is touched. -/
theorem writeNew_eq (hsound : s.store.committed.Sound) :
    s.writeNew fresh name options ⟨.update, s.store.committed⟩ =
      match s.store.peerRows.get? (Peers.key name) with
      | some _ => (.error (.alreadyExists .wireGuard), ⟨.update, s.store.committed⟩)
      | none =>
        match s.chooseAddress options.address with
        | .error e => (.error e, ⟨.update, s.store.committed⟩)
        | .ok a =>
          let p := s.newPeer fresh name a options
          (.ok p,
            ⟨.update, s.store.committed.withRows .peers
              (s.store.peerRows.insert (Peers.key name) p.encode)⟩) := by
  rw [writeNew, run_eq (Peers.run_contains hsound name), ← Store.peerRows, Rows.contains]
  cases hget : s.store.peerRows.get? (Peers.key name) with
  | some value => rfl
  | none =>
    simp only [Option.isSome_none]
    cases s.chooseAddress options.address with
    | error e => rfl
    | ok a =>
      have hadd := Peers.run_add hsound (p := s.newPeer fresh name a options) hget
      simp only [run_eq hadd]
      rfl

/-- Undoing the record of a new client brings the store back, since there was no row under
its name. -/
theorem undo_add {store : Store} (hsound : store.committed.Sound) (hfree : store.free = true)
    (hopen : store.closed = false) (hnew : store.peerRows.get? (Peers.key name) = none)
    {db : Database} {value : Bytes}
    (hdb : db = store.committed.withRows .peers (store.peerRows.insert (Peers.key name) value)) :
    undo ((⟨.update, db⟩ : Transaction).commit (store.enter .update)).1 (Peers.remove name)
      ((⟨.update, db⟩ : Transaction).commit (store.enter .update)).2 = store := by
  have hrows : db.rows .peers = store.peerRows.insert (Peers.key name) value := by
    rw [hdb, Database.rows_withRows, if_pos rfl]
  have hremove := Peers.run_remove (hdb ▸ hsound.withRows .peers _)
    (hrows ▸ Rows.get?_insert_self _ _ _)
  rw [undo_commit hfree hopen hremove, hrows, Rows.erase_insert hnew, hdb,
    Database.withRows_withRows]
  exact Store.withPeers_peerRows hsound

/-- The service after a client was added: its record is in the store, the controller is another one,
and the cursor has moved past the address if that is in the network of the server. -/
def added (s : Service) (p : PeerIdentity) (controller : Controller) : Service :=
  { s with
    store := s.store.withPeers (s.store.peerRows.insert (Peers.key p.name) p.encode)
    controller := controller
    cursor := Allocation.advance s.settings.address p.address s.cursor }

/-- Adding a client, seen from outside of the transaction: the checks in their order, then the
commit, and the step at the controller with the undo of the commit if that fails. -/
theorem add_eq (hsound : s.store.committed.Sound) (hfree : s.store.free = true)
    (hopen : s.store.closed = false) :
    s.add fresh name options =
      match s.store.peerRows.get? (Peers.key name) with
      | some _ => (.error (.alreadyExists .wireGuard), s)
      | none =>
        match s.chooseAddress options.address with
        | .error e => (.error e, s)
        | .ok a =>
          let p := s.newPeer fresh name a options
          match s.controller.stage (projection p) with
          | .error e => (.error (.ofInterface e), s)
          | .ok staged =>
            match s.controller.apply staged with
            | (.error e, c) => (.error (.ofInterface e), { s with controller := c })
            | (.ok _, c) => (.ok (s.clientConfig p), s.added p c) := by
  -- whatever is refused before the commit gives the transaction up
  have hback : ∀ db,
      { s with store := (⟨.update, db⟩ : Transaction).rollback (s.store.enter .update) } = s :=
    fun db => by rw [Store.rollback_enter hfree]
  rw [add, begin, Store.begin_update hfree hopen]
  simp only [writeNew_eq hsound]
  cases hget : s.store.peerRows.get? (Peers.key name) with
  | some value => simp only [hback]
  | none =>
    simp only
    cases s.chooseAddress options.address with
    | error e => simp only [hback]
    | ok a =>
      simp only
      generalize hp : s.newPeer fresh name a options = p
      have hname : p.name = name := by rw [← hp]; rfl
      cases s.controller.stage (projection p) with
      | error e => simp only [hback]
      | ok staged =>
        simp only
        -- what fails after the commit is undone by a second transaction
        cases s.controller.apply staged with
        | mk r c =>
          cases r with
          | error e => simp only [undo_add hsound hfree hopen hget rfl]
          | ok u =>
            simp only [Store.release_commit hfree]
            rw [← hname]
            rfl

/-- The outcomes of adding a client: it is refused, it is undone after its commit, or it is done. -/
inductive AddOutcome (s : Service) (fresh : PrivateKey) (name : String) (options : AddOptions) :
    Except ServiceError Config.Client × Service → Prop where
  /-- Nothing has changed. -/
  | refused (e : ServiceError) : AddOutcome s fresh name options (.error e, s)
  /-- The step at the controller failed; its arm is gone. -/
  | undone (e : ServiceError) (c : Controller) (unchanged : c.config = s.controller.config) :
    AddOutcome s fresh name options (.error e, { s with controller := c })
  /-- The client is stored under a new name, and live under it. -/
  | added (a : Net) (config : Config.Server)
    (isNew : s.store.peerRows.get? (Peers.key name) = none)
    (chosen : s.chooseAddress options.address = .ok a)
    (loaded : s.controller.config = some config) (notLive : config.find? name = none) :
    AddOutcome s fresh name options
      (.ok (s.clientConfig (s.newPeer fresh name a options)),
        s.added (s.newPeer fresh name a options)
          (s.controller.load { config with
            peers := config.peers ++ [projection (s.newPeer fresh name a options)] }))

/-- Adding a client to a sound database in a free store has one of its outcomes. There is no fourth
one, since the undo of the commit succeeds on such a store. -/
theorem add_outcome (hsound : s.store.committed.Sound) (hfree : s.store.free = true)
    (fresh : PrivateKey) (name : String) (options : AddOptions) :
    AddOutcome s fresh name options (s.add fresh name options) := by
  cases hclosed : s.store.closed with
  | true =>
    rw [add, begin, Store.begin_update_of_closed hfree hclosed]
    exact .refused _
  | false =>
    rw [add_eq hsound hfree hclosed]
    cases hget : s.store.peerRows.get? (Peers.key name) with
    | some value => exact .refused _
    | none =>
      simp only
      cases hchoose : s.chooseAddress options.address with
      | error e => exact .refused _
      | ok a =>
        simp only
        cases hstage : s.controller.stage (projection (s.newPeer fresh name a options)) with
        | error e => exact .refused _
        | ok staged =>
          obtain ⟨rfl, config, hconfig, hfind⟩ := Controller.of_stage_eq_ok hstage
          -- the record is committed by now: the step at the controller fails and is undone, or the
          -- client is live
          rcases Controller.apply_cases hconfig hfind with ⟨e, c, happly, hc⟩ | happly
          · simp only [happly]
            exact .undone _ c hc
          · simp only [happly]
            exact .added a config hget hchoose hconfig hfind

/-! ## Removing -/

/-- Removing the record of a client: the record must be there, and be read, or else nothing changes.
Then its row is gone, and otherwise none is touched. -/
theorem eraseOld_eq (hsound : s.store.committed.Sound) (name : String) :
    (∃ e, eraseOld name ⟨.update, s.store.committed⟩ = (.error e, ⟨.update, s.store.committed⟩)) ∨
      ∃ p value, p.name = name ∧ s.store.peerRows.get? (Peers.key name) = some value ∧
        PeerIdentity.decode name value = .ok p ∧
        eraseOld name ⟨.update, s.store.committed⟩ =
          (.ok p, ⟨.update,
            s.store.committed.withRows .peers (s.store.peerRows.erase (Peers.key name))⟩) := by
  -- no record is refused, and so is one that cannot be read
  rw [eraseOld, run_eq (Peers.run_get hsound name), ← Store.peerRows]
  cases hget : s.store.peerRows.get? (Peers.key name) with
  | none => exact .inl ⟨_, rfl⟩
  | some value =>
    simp only
    cases hdecode : PeerIdentity.decode name value with
    | error e =>
      left
      split
      · next h =>
        cases h
        exact ⟨_, rfl⟩
      · next h =>
        cases h
        exact ⟨_, rfl⟩
      · next h => cases h
    | ok p =>
      simp only [run_eq (Peers.run_remove hsound hget)]
      exact .inr ⟨p, value, (PeerIdentity.of_decode hdecode).1, rfl, hdecode, rfl⟩

/-- Undoing the removal of a client writes its record anew. The row need not be the old one, as it
is encoded again. -/
theorem undo_remove {store : Store} (hsound : store.committed.Sound) (hfree : store.free = true)
    (hopen : store.closed = false) (p : PeerIdentity) {db : Database}
    (hdb : db = store.committed.withRows .peers (store.peerRows.erase (Peers.key p.name))) :
    undo ((⟨.update, db⟩ : Transaction).commit (store.enter .update)).1 (Peers.add p)
      ((⟨.update, db⟩ : Transaction).commit (store.enter .update)).2 =
        store.withPeers (store.peerRows.insert (Peers.key p.name) p.encode) := by
  have hrows : db.rows .peers = store.peerRows.erase (Peers.key p.name) := by
    rw [hdb, Database.rows_withRows, if_pos rfl]
  have hadd := Peers.run_add (hdb ▸ hsound.withRows .peers _) (hrows ▸ Rows.get?_erase_self _ _)
  rw [undo_commit hfree hopen hadd, hrows, Rows.insert_erase, hdb, Database.withRows_withRows]
  rfl

/-- Only a client that is live passes the check: a configuration is loaded, and it has the name. -/
theorem of_checkLive {u : Unit} (h : s.checkLive name = .ok u) :
    ∃ config, s.controller.config = some config ∧ (config.find? name).isSome = true := by
  rw [checkLive] at h
  split at h
  · cases h
  · cases h
  · next hhas =>
    obtain ⟨config, hsnapshot, hfind⟩ := bind_eq_ok.1 hhas
    exact ⟨config, Controller.of_snapshot_eq_ok hsnapshot, Except.ok.inj hfind⟩

/-- The service after a client was removed: its record is gone, and the controller is another one.
The cursor stays, so that its address is not given to the next client. -/
def removed (s : Service) (name : String) (controller : Controller) : Service :=
  { s with
    store := s.store.withPeers (s.store.peerRows.erase (Peers.key name))
    controller := controller }

/-- The outcomes of removing a client: it is refused, it is undone after its commit, or it
is done. -/
inductive RemoveOutcome (s : Service) (name : String) : Except ServiceError Unit × Service → Prop
    where
  /-- Nothing has changed. -/
  | refused (e : ServiceError) : RemoveOutcome s name (.error e, s)
  /-- The step at the controller failed; its arm is gone, and the record was written anew. -/
  | undone (e : ServiceError) (c : Controller) (p : PeerIdentity) (value : Bytes)
    (name_eq : p.name = name) (stored : s.store.peerRows.get? (Peers.key name) = some value)
    (decoded : PeerIdentity.decode name value = .ok p)
    (unchanged : c.config = s.controller.config) :
    RemoveOutcome s name
      (.error e,
        { s with
          store := s.store.withPeers (s.store.peerRows.insert (Peers.key name) p.encode)
          controller := c })
  /-- The client was stored and live, and is neither any more. -/
  | removed (p : PeerIdentity) (value : Bytes) (config : Config.Server)
    (name_eq : p.name = name) (stored : s.store.peerRows.get? (Peers.key name) = some value)
    (decoded : PeerIdentity.decode name value = .ok p)
    (loaded : s.controller.config = some config) (live : (config.find? name).isSome = true) :
    RemoveOutcome s name
      (.ok (), s.removed name
        (s.controller.load { config with peers := config.peers.eraseP fun q => q.name == name }))

/-- Removing a client from a sound database in a free store has one of its outcomes. -/
theorem remove_outcome (hsound : s.store.committed.Sound) (hfree : s.store.free = true)
    (name : String) : RemoveOutcome s name (s.remove name) := by
  cases hclosed : s.store.closed with
  | true =>
    rw [remove, begin, Store.begin_update_of_closed hfree hclosed]
    exact .refused _
  | false =>
    -- as for an addition, but both checks stand before the commit
    have hback : ∀ db,
        { s with store := (⟨.update, db⟩ : Transaction).rollback (s.store.enter .update) } = s :=
      fun db => by rw [Store.rollback_enter hfree]
    rw [remove, begin, Store.begin_update hfree hclosed]
    rcases eraseOld_eq hsound name with ⟨e, herase⟩ | ⟨p, value, hname, hget, hp, herase⟩
    · simp only [herase, hback]
      exact .refused e
    · simp only [herase]
      cases hlive : s.checkLive name with
      | error e =>
        simp only [hback]
        exact .refused e
      | ok u =>
        obtain ⟨config, hconfig, hfind⟩ := of_checkLive hlive
        rcases Controller.remove_cases hconfig hfind with ⟨e, c, hremove, hc⟩ | hremove
        · subst hname
          simp only [hremove, undo_remove hsound hfree hclosed p rfl]
          exact .undone _ c p value rfl hget hp hc
        · simp only [hremove, Store.release_commit hfree]
          exact .removed p value config hname hget hp hconfig hfind

/-- Every client that is stored after a removal was stored before: a row that was written anew is
read as the same client. -/
theorem RemoveOutcome.of_holds {r : Except ServiceError Unit × Service}
    (houtcome : RemoveOutcome s name r) {p : PeerIdentity} (hp : r.2.store.peerRows.Holds p) :
    s.store.peerRows.Holds p := by
  cases houtcome with
  | refused => exact hp
  | undone _ _ q value hname hget hq =>
    rw [Store.peerRows_withPeers, ← hname] at hp
    rcases Rows.of_holds_insert hp with rfl | hp
    · exact (Rows.holds_of_decode hget hq).2
    · exact hp
  | removed =>
    rw [Service.removed, Store.peerRows_withPeers] at hp
    exact (Rows.holds_erase.1 hp).2

/-! ## Any store

Whatever the store does, only adding a client moves the cursor, and only by the address it gave. -/

/-- What was written is a new record with the chosen address, whatever the transaction. -/
theorem of_writeNew {t t' : Transaction} {p : PeerIdentity}
    (h : s.writeNew fresh name options t = (.ok p, t')) :
    ∃ a, s.chooseAddress options.address = .ok a ∧ p = s.newPeer fresh name a options := by
  rw [writeNew] at h
  split at h
  · cases h
  · cases h
  · split at h
    · cases h
    · next a ha =>
      simp only at h
      split at h
      · cases h
      · cases h
        exact ⟨a, ha, rfl⟩

/-- The settings, the public key and the cursor of a service stay, whatever else changes. -/
structure Keeps (s s' : Service) : Prop where
  settings : s'.settings = s.settings
  publicKey : s'.publicKey = s.publicKey
  cursor : s'.cursor = s.cursor

/-- A failed addition keeps the cursor. Any other gives a chosen address and moves the cursor by
`Allocation.advance`. This asks nothing of the store. -/
theorem add_cursor (s : Service) (fresh : PrivateKey) (name : String) (options : AddOptions) :
    (∃ e s', s.add fresh name options = (.error e, s') ∧ s.Keeps s') ∨
      ∃ a s', s.chooseAddress options.address = .ok a ∧
        s.add fresh name options = (.ok (s.clientConfig (s.newPeer fresh name a options)), s') ∧
        s.Keeps { s' with cursor := s.cursor } ∧
        s'.cursor = Allocation.advance s.settings.address a s.cursor := by
  rw [add]
  split
  · exact .inl ⟨_, _, rfl, rfl, rfl, rfl⟩
  · split
    · exact .inl ⟨_, _, rfl, rfl, rfl, rfl⟩
    · next hwrite =>
      obtain ⟨a, ha, rfl⟩ := of_writeNew hwrite
      split
      · exact .inl ⟨_, _, rfl, rfl, rfl, rfl⟩
      · simp only
        split
        · exact .inl ⟨_, _, rfl, rfl, rfl, rfl⟩
        · exact .inr ⟨a, _, ha, rfl, ⟨rfl, rfl, rfl⟩, rfl⟩

/-- Adding a client keeps the settings and the public key, and if it fails, the cursor as well. -/
theorem add_keeps (s : Service) (fresh : PrivateKey) (name : String) (options : AddOptions) :
    s.Keeps { (s.add fresh name options).2 with cursor := s.cursor } := by
  rcases s.add_cursor fresh name options with ⟨e, s', hadd, hkeeps⟩ | ⟨a, s', -, hadd, hkeeps, -⟩
  · rw [hadd]
    exact ⟨hkeeps.settings, hkeeps.publicKey, rfl⟩
  · rw [hadd]
    exact hkeeps

/-- Removing a client keeps the settings, the public key and the cursor, whether it fails or not. -/
theorem remove_keeps (s : Service) (name : String) : s.Keeps (s.remove name).2 := by
  rw [remove]
  split
  · exact ⟨rfl, rfl, rfl⟩
  · split
    · exact ⟨rfl, rfl, rfl⟩
    · split
      · exact ⟨rfl, rfl, rfl⟩
      · simp only
        split <;> exact ⟨rfl, rfl, rfl⟩

end Service

end WireKeeper
