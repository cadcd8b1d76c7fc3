import WireKeeper.Proofs.Service.Agreement
import WireKeeper.Proofs.Service.Cursor
import WireKeeper.Proofs.Service.Refusals

/-! # Runs over a database that may refuse

Between its calls a service may meet a database that blocks kinds of changes, or no longer does. As
long as the database takes every undo that a call comes to, the service stays **in step** with its
store: the names at the controller are those that are stored, and the cursor is above all stored
addresses. Unless a client is removed, the cursor also stays **tight**: it has reached one of them.
A client whose lists cannot be counted is the exception. Its record is not read back, so that it
stays for good, and a service on a store that is **spoilt** like this is never started anew.

* `Occurrence`, `meet`, `meetAll`: calls, and what the database blocks;
* `Throughout`, `Withdrawing`, `Retaining`: what holds all along a run;
* `InStep`, `Tight`, `Spoilt`: the invariants, with one lemma for each occurrence;
* `InStep.meetAll`: every run keeps them, or spoils the store. -/

namespace WireKeeper.Service

/-! ## Occurrences -/

/-- What can happen while a service runs: a call, or the database blocks a kind of change in a
bucket or no longer does. -/
inductive Occurrence where
  | call (c : Call)
  | block (b : Bucket) (verb : Verb) (on : Bool)

/-- The service after an occurrence; blocking something that is not there changes nothing. -/
def meet (s : Service) : Occurrence → Service
  | .call c => s.after c
  | .block b verb on =>
    match s.store.committed.setBlock b verb on with
    | .ok db => { s with store := s.store.withCommitted db }
    | .error _ => s

/-- The service after some occurrences, one after the other. -/
def meetAll (s : Service) (os : List Occurrence) : Service := os.foldl meet s

/-- Something holds of a service and of what it meets, each time. -/
def Throughout (P : Service → Occurrence → Prop) : Service → List Occurrence → Prop
  | _, [] => True
  | s, o :: os => P s o ∧ Throughout P (s.meet o) os

/-- The lists of an occurrence can be counted. -/
def Occurrence.Countable : Occurrence → Prop
  | .call c => (Event.call c).Countable
  | .block .. => True

/-- An occurrence is **withdrawing** if the database takes the undo of a call, should it come to
one. -/
def Withdrawing (s : Service) : Occurrence → Prop
  | .call c => s.Withdraws c
  | .block .. => True

/-- An occurrence is **retaining** if it is no removal that succeeds. -/
def Retaining (s : Service) : Occurrence → Prop
  | .call (.remove name) => (s.remove name).1.isOk = false
  | _ => True

/-- Whether no removal succeeds can be decided, by making it. -/
instance decidableRetaining (s : Service) : (o : Occurrence) → Decidable (s.Retaining o)
  | .call (.remove name) => inferInstanceAs (Decidable ((s.remove name).1.isOk = false))
  | .call (.add ..) | .call (.get _) | .call .infos | .call (.arm _) | .block .. => .isTrue trivial

/-- What can be decided of each occurrence can be decided of a run. -/
instance decidableThroughout {P : Service → Occurrence → Prop} [∀ s o, Decidable (P s o)] :
    (s : Service) → (os : List Occurrence) → Decidable (s.Throughout P os)
  | _, [] => .isTrue trivial
  | s, o :: os => @instDecidableAnd _ _ _ (decidableThroughout (s.meet o) os)

/-! ## The invariants -/

/-- A service is **in step** with its store if that is free and can be read anew, the names at the
controller are those that are stored, and the cursor is above all stored addresses. -/
structure InStep (s : Service) : Prop where
  free : s.store.free = true
  isOpen : s.store.closed = false
  identified : ∃ value i, (s.store.committed.rows .server).get? Identity.key = some value ∧
    ServerIdentity.decode value = .ok i
  table : ∃ t, s.store.committed.table .peers = some t
  readable : s.store.peerRows.Readable
  loaded : ∃ config, s.controller.config = some config
  nodup_names : (s.controller.peers.map Config.ServerPeer.name).Nodup
  mem_names : ∀ name, name ∈ s.controller.peers.map Config.ServerPeer.name ↔
    s.store.peerRows.contains (Peers.key name) = true
  above : ∃ seen, Allocation.Above s.settings.address s.cursor seen ∧
    ∀ p, s.store.peerRows.Holds p → p.address ∈ seen

/-- The cursor is **tight** if it has reached the server's address or one that is stored. -/
def Tight (s : Service) : Prop :=
  ∃ seen, Allocation.Reached s.settings.address s.cursor seen ∧
    ∀ x ∈ seen, ∃ p, s.store.peerRows.Holds p ∧ p.address = x

/-- The store of a service is **spoilt** if it is free and open, but has a row that is not read. -/
structure Spoilt (s : Service) : Prop where
  free : s.store.free = true
  isOpen : s.store.closed = false
  unreadable : ¬s.store.peerRows.Readable

variable {s : Service}

/-- The arms of the controller do not matter: with the same configuration the service is in step. -/
theorem InStep.controller (h : s.InStep) {c : Controller} (hc : c.config = s.controller.config) :
    InStep { s with controller := c } where
  free := h.free
  isOpen := h.isOpen
  identified := h.identified
  table := h.table
  readable := h.readable
  loaded := hc ▸ h.loaded
  nodup_names := by
    rw [show c.peers = s.controller.peers from Controller.peers_congr hc]
    exact h.nodup_names
  mem_names name := by
    rw [show c.peers = s.controller.peers from Controller.peers_congr hc]
    exact h.mem_names name
  above := h.above

/-- New rows of peers, with the names at the controller and the cursor that go with them, keep the
service in step. -/
theorem InStep.withRows (h : s.InStep) {rows : Rows} {c : Controller} {cursor : Net}
    (hreadable : rows.Readable) (hloaded : ∃ config, c.config = some config)
    (hnodup : (c.peers.map Config.ServerPeer.name).Nodup)
    (hmem : ∀ name, name ∈ c.peers.map Config.ServerPeer.name ↔
      rows.contains (Peers.key name) = true)
    (habove : ∃ seen, Allocation.Above s.settings.address cursor seen ∧
      ∀ p, rows.Holds p → p.address ∈ seen) :
    InStep { s.withRows rows c with cursor := cursor } := by
  have hrows := peerRows_withRows h.table rows c
  -- the rows of the server are others, and the bucket of the peers is there still
  refine ⟨h.free, h.isOpen, ?_, ?_, hrows.symm ▸ hreadable, hloaded, hnodup, ?_, ?_⟩
  · obtain ⟨value, i, hget, hi⟩ := h.identified
    refine ⟨value, i, ?_, hi⟩
    rw [← hget]
    exact congrArg (Rows.get? · _) (Database.rows_setRows_of_ne (by decide) rows)
  · obtain ⟨t, ht⟩ := h.table
    exact ⟨_, Database.table_setRows ht rows⟩
  · intro name
    rw [show (s.withRows rows c).store.peerRows = rows from hrows]
    exact hmem name
  · obtain ⟨seen, hseen, hall⟩ := habove
    exact ⟨seen, hseen, fun p hp => hall p (hrows ▸ hp)⟩

/-- What is not stored is not found at the controller. -/
theorem InStep.find?_eq_none (h : s.InStep) {name : String} {config : Config.Server}
    (hconfig : s.controller.config = some config)
    (hnew : s.store.peerRows.get? (Peers.key name) = none) : config.find? name = none := by
  refine List.find?_eq_none.2 fun q hq hname => ?_
  have hmem : name ∈ s.controller.peers.map Config.ServerPeer.name := by
    rw [Controller.peers_eq hconfig]
    exact List.mem_map.2 ⟨q, hq, beq_iff_eq.1 hname⟩
  have hcontains := (h.mem_names name).1 hmem
  rw [Rows.contains, hnew] at hcontains
  cases hcontains

/-- A cursor stays tight as long as it stays where it is and no client is lost. -/
theorem Tight.of_holds {f : Service} (h : s.Tight) (hsettings : f.settings = s.settings)
    (hcursor : f.cursor = s.cursor)
    (hholds : ∀ p, s.store.peerRows.Holds p → f.store.peerRows.Holds p) : f.Tight := by
  obtain ⟨seen, hreached, hseen⟩ := h
  refine ⟨seen, hsettings ▸ hcursor ▸ hreached, fun x hx => ?_⟩
  obtain ⟨p, hp, hpx⟩ := hseen x hx
  exact ⟨p, hholds p hp, hpx⟩

/-- Nothing is started on a spoilt store, with any settings and at any controller. -/
theorem Spoilt.start_ne_ok (h : s.Spoilt) {settings : ServiceSettings} {fresh : PrivateKey}
    {controller : Controller} {f : Service} : start settings fresh s.store controller ≠ .ok f := by
  intro hstart
  obtain ⟨i, peers, hstarted⟩ := of_start_eq_ok hstart
  exact h.unreadable (Rows.readable_of_all hstarted.read)

/-! ## Adding -/

section Enrolled

variable {p : PeerIdentity} {config : Config.Server}

/-- One name more at both places, and a cursor that has followed the new address, keep the service
in step. -/
theorem InStep.enrolled (h : s.InStep) (hcount : p.Countable)
    (hloaded : s.controller.config = some config) (hlive : config.find? p.name = none) :
    InStep (s.enrolled p
      (s.controller.load { config with peers := config.peers ++ [projection p] })) := by
  have hpeers := Controller.peers_eq hloaded
  obtain ⟨seen, habove, hseen⟩ := h.above
  refine h.withRows (h.readable.insert hcount) ⟨_, rfl⟩ ?_ (fun other => ?_)
    ⟨p.address :: seen, habove.advance p.address, fun q hq => ?_⟩
  · exact Config.Server.nodup_names_concat (hpeers ▸ h.nodup_names)
      (Config.Server.find?_eq_none_iff.1 hlive)
  -- a name is new at both places or was at both
  · show other ∈ (config.peers ++ [projection p]).map Config.ServerPeer.name ↔ _
    rw [List.map_append, List.mem_append, ← hpeers, h.mem_names, Rows.contains_insert,
      Peers.key_inj, or_comm]
    exact or_congr_left List.mem_singleton
  · rcases Rows.of_holds_insert hq with rfl | hq
    · exact List.mem_cons_self
    · exact List.mem_cons_of_mem _ (hseen q hq)

/-- The cursor has reached the new address if it has moved, so it is tight still. -/
theorem Tight.enrolled (ht : s.Tight) (hcount : p.Countable)
    (htable : ∃ t, s.store.committed.table .peers = some t)
    (hnew : s.store.peerRows.get? (Peers.key p.name) = none) (c : Controller) :
    Tight (s.enrolled p c) := by
  obtain ⟨seen, hreached, hseen⟩ := ht
  refine ⟨p.address :: seen, hreached.advance p.address, fun x hx => ?_⟩
  rw [peerRows_enrolled htable]
  rcases List.mem_cons.1 hx with rfl | hx
  · exact ⟨p, (Rows.holds_insert hcount).2 (.inl rfl), rfl⟩
  · obtain ⟨q, hq, hqx⟩ := hseen x hx
    exact ⟨q, hq.insert_new hcount hnew, hqx⟩

/-- A client whose lists cannot be counted spoils the store, as its record is not read back. -/
theorem InStep.spoilt_enrolled (h : s.InStep) (hcount : ¬p.Countable) (c : Controller) :
    Spoilt (s.enrolled p c) := by
  refine ⟨h.free, h.isOpen, fun hreadable => hcount ?_⟩
  rw [peerRows_enrolled h.table] at hreadable
  exact hreadable.countable

end Enrolled

/-- Adding a client keeps the service in step, and the cursor tight, unless the lists of the client
cannot be counted. Then the store may be spoilt. -/
theorem InStep.add (h : s.InStep) (fresh : PrivateKey) (name : String) (options : AddOptions)
    (hwithdraws : s.Withdraws (.add fresh name options)) :
    (InStep (s.add fresh name options).2 ∧ (s.Tight → Tight (s.add fresh name options).2)) ∨
      Spoilt (s.add fresh name options).2 ∧ ¬(s.settings.Countable ∧ options.Countable) := by
  have hresult := add_result h.free h.isOpen fresh name options hwithdraws
  generalize s.add fresh name options = r at hresult ⊢
  cases hresult with
  | refused => exact .inl ⟨h, id⟩
  | undone _ c hc => exact .inl ⟨h.controller hc, id⟩
  | added a config htable hnew hchosen hloaded hlive =>
    by_cases hcount : (s.newPeer fresh name a options).Countable
    · exact .inl ⟨h.enrolled hcount hloaded hlive, fun ht => ht.enrolled hcount htable hnew _⟩
    · exact .inr ⟨h.spoilt_enrolled hcount _, fun hlists =>
        hcount (countable_newPeer hlists.1 hlists.2 fresh name a)⟩

/-- Adding a client leaves a spoilt store spoilt: the row that is not read stays. -/
theorem Spoilt.add (h : s.Spoilt) (fresh : PrivateKey) (name : String) (options : AddOptions)
    (hwithdraws : s.Withdraws (.add fresh name options)) :
    Spoilt (s.add fresh name options).2 := by
  have hresult := add_result h.free h.isOpen fresh name options hwithdraws
  generalize s.add fresh name options = r at hresult ⊢
  cases hresult with
  | refused => exact h
  | undone => exact ⟨h.free, h.isOpen, h.unreadable⟩
  | added a config htable hnew =>
    refine ⟨h.free, h.isOpen, fun hreadable => h.unreadable ?_⟩
    rw [peerRows_enrolled htable] at hreadable
    -- the row that is not read has another name
    refine hreadable.of_others (fun k hk => by rw [Rows.get?_insert, if_neg hk]) fun v hv => ?_
    cases hnew.symm.trans hv

/-! ## Removing -/

/-- Removing a client keeps the service in step, and the cursor tight if it fails. -/
theorem InStep.remove (h : s.InStep) (name : String) (hwithdraws : s.Withdraws (.remove name)) :
    InStep (s.remove name).2 ∧
      ((s.remove name).1.isOk = false → s.Tight → Tight (s.remove name).2) := by
  have hresult := remove_result h.free h.isOpen name hwithdraws
  generalize s.remove name = r at hresult ⊢
  obtain ⟨seen, habove, hseen⟩ := h.above
  cases hresult with
  | refused => exact ⟨h, fun _ => id⟩
  | undone _ c p value hname hget hp hc =>
    -- the record stands in its place again, so that every client is held that was held before
    obtain ⟨-, hholds⟩ := Rows.holds_of_decode hget hp
    have hiff : ∀ q, _ ↔ s.store.peerRows.Holds q := fun q => Rows.holds_insert_of_holds hholds
    constructor
    · refine (h.controller hc).withRows (h.readable.insert hholds.countable)
        (h.controller hc).loaded (h.controller hc).nodup_names (fun other => ?_)
        ⟨seen, habove, fun q hq => hseen q ((hiff q).1 hq)⟩
      rw [(h.controller hc).mem_names, Rows.contains_insert]
      refine ⟨.inr, fun hor => hor.elim (fun hkey => ?_) id⟩
      rw [hkey, hname, Rows.contains, hget]
      rfl
    · refine fun _ htight => htight.of_holds rfl rfl fun q hq => ?_
      rw [peerRows_withRows h.table]
      exact (hiff q).2 hq
  | removed p value config hget _ hloaded hlive =>
    have hpeers := Controller.peers_eq hloaded
    have hnodup := h.nodup_names
    rw [hpeers] at hnodup
    -- the cursor remembers the address of the client, which is now above all that are stored
    refine ⟨h.withRows (h.readable.erase _) ⟨_, rfl⟩ ((List.eraseP_sublist.map _).nodup hnodup)
      (fun other => ?_) ⟨seen, habove, fun q hq => hseen q (Rows.holds_erase.1 hq).2⟩,
      fun hfailed => absurd hfailed.symm Bool.false_ne_true⟩
    show other ∈ (config.peers.eraseP _).map Config.ServerPeer.name ↔ _
    rw [Rows.contains_erase, ← h.mem_names, hpeers, Ne, Peers.key_inj, List.mem_map, List.mem_map]
    constructor
    · rintro ⟨q, hq, rfl⟩
      obtain ⟨hq, hne⟩ := (mem_eraseP_of_nodup hnodup).1 hq
      exact ⟨hne, q, hq, rfl⟩
    · rintro ⟨hne, q, hq, rfl⟩
      exact ⟨q, (mem_eraseP_of_nodup hnodup).2 ⟨hq, hne⟩, rfl⟩

/-- Removing a client leaves a spoilt store spoilt: only what is read can be removed. -/
theorem Spoilt.remove (h : s.Spoilt) (name : String) (hwithdraws : s.Withdraws (.remove name)) :
    Spoilt (s.remove name).2 := by
  have hresult := remove_result h.free h.isOpen name hwithdraws
  generalize s.remove name = r at hresult ⊢
  -- all other rows are as they were, so if these are read now, they were read before
  cases hresult with
  | refused => exact h
  | undone _ c p value hname hget hp =>
    refine ⟨h.free, h.isOpen, fun hreadable => h.unreadable ?_⟩
    rw [peerRows_withRows (Database.exists_table_of_get? hget)] at hreadable
    refine hreadable.of_others (fun k hk => by rw [Rows.get?_insert, if_neg hk]) fun v hv => ?_
    rw [hname, hget] at hv
    cases hv
    exact ⟨p, Peers.ofRow_eq_ok.2 ⟨rfl, hname ▸ hp⟩⟩
  | removed p value config hget hp =>
    refine ⟨h.free, h.isOpen, fun hreadable => h.unreadable ?_⟩
    rw [peerRows_withRows (Database.exists_table_of_get? hget)] at hreadable
    refine hreadable.of_others (fun k hk => by rw [Rows.get?_erase, if_neg hk]) fun v hv => ?_
    cases hget.symm.trans hv
    obtain rfl := (PeerIdentity.of_decode hp).1
    exact ⟨p, Peers.ofRow_eq_ok.2 ⟨rfl, hp⟩⟩

/-! ## What the database blocks -/

/-- What the database blocks does not matter: no row and no name is changed. -/
theorem InStep.block (h : s.InStep) (b : Bucket) (verb : Verb) (on : Bool) :
    InStep (s.meet (.block b verb on)) ∧ (s.Tight → Tight (s.meet (.block b verb on))) := by
  rw [meet]
  cases hblock : s.store.committed.setBlock b verb on with
  | error e => exact ⟨h, id⟩
  | ok db =>
    have hrows : (s.store.withCommitted db).peerRows = s.store.peerRows :=
      Database.rows_of_setBlock hblock
    constructor
    · refine ⟨h.free, h.isOpen, ?_, Database.exists_table_of_setBlock hblock h.table,
        hrows.symm ▸ h.readable, h.loaded, h.nodup_names, hrows.symm ▸ h.mem_names, ?_⟩
      · obtain ⟨value, i, hget, hi⟩ := h.identified
        exact ⟨value, i, (congrArg (Rows.get? · _) (Database.rows_of_setBlock hblock)).trans hget,
          hi⟩
      · obtain ⟨seen, habove, hseen⟩ := h.above
        exact ⟨seen, habove, fun p hp => hseen p (hrows ▸ hp)⟩
    · exact fun htight => htight.of_holds rfl rfl fun p hp => hrows.symm ▸ hp

/-- What the database blocks does not help a spoilt store. -/
theorem Spoilt.block (h : s.Spoilt) (b : Bucket) (verb : Verb) (on : Bool) :
    Spoilt (s.meet (.block b verb on)) := by
  rw [meet]
  cases hblock : s.store.committed.setBlock b verb on with
  | error e => exact h
  | ok db =>
    have hrows : (s.store.withCommitted db).peerRows = s.store.peerRows :=
      Database.rows_of_setBlock hblock
    exact ⟨h.free, h.isOpen, hrows.symm ▸ h.unreadable⟩

/-! ## Runs -/

/-- Whatever a service meets keeps the settings. -/
theorem settings_meet (s : Service) (o : Occurrence) : (s.meet o).settings = s.settings := by
  cases o with
  | block b verb on =>
    rw [meet]
    split <;> rfl
  | call c => exact (s.after_keeps c).settings

/-- A run keeps the settings. -/
theorem settings_meetAll (s : Service) (os : List Occurrence) :
    (s.meetAll os).settings = s.settings := by
  induction os generalizing s with
  | nil => rfl
  | cons o os ih => exact (ih (s.meet o)).trans (s.settings_meet o)

/-- Whatever a service meets keeps it in step, and the cursor tight unless a client is removed, or
its lists cannot be counted and it spoils the store. This is the step of the invariant. -/
theorem InStep.meet (h : s.InStep) {o : Occurrence} (hwithdraws : s.Withdrawing o) :
    (InStep (s.meet o) ∧ (s.Retaining o → s.Tight → Tight (s.meet o))) ∨
      Spoilt (s.meet o) ∧ ¬(s.settings.Countable ∧ o.Countable) := by
  cases o with
  | block b verb on => exact .inl ⟨(h.block b verb on).1, fun _ => (h.block b verb on).2⟩
  | call c =>
    cases c with
    | add fresh name options =>
      exact (h.add fresh name options hwithdraws).imp_left fun hadd => ⟨hadd.1, fun _ => hadd.2⟩
    | remove name => exact .inl (h.remove name hwithdraws)
    | get name => exact .inl ⟨h, fun _ => id⟩
    | infos => exact .inl ⟨h, fun _ => id⟩
    | arm step => exact .inl ⟨h.controller rfl, fun _ => id⟩

/-- Whatever a service meets leaves a spoilt store spoilt. -/
theorem Spoilt.meet (h : s.Spoilt) {o : Occurrence} (hwithdraws : s.Withdrawing o) :
    Spoilt (s.meet o) := by
  cases o with
  | block b verb on => exact h.block b verb on
  | call c =>
    cases c with
    | add fresh name options => exact h.add fresh name options hwithdraws
    | remove name => exact h.remove name hwithdraws
    | get name => exact h
    | infos => exact h
    | arm step => exact ⟨h.free, h.isOpen, h.unreadable⟩

/-- A run leaves a spoilt store spoilt. -/
theorem Spoilt.meetAll (h : s.Spoilt) {os : List Occurrence}
    (hwithdraws : s.Throughout Withdrawing os) : Spoilt (s.meetAll os) := by
  induction os generalizing s with
  | nil => exact h
  | cons o os ih => exact ih (h.meet hwithdraws.1) hwithdraws.2

/-- A run keeps a service in step, and the cursor tight unless a client is removed, or it spoils the
store with lists that cannot be counted. The induction is on the run; a store that is spoilt once
stays so. -/
theorem InStep.meetAll (h : s.InStep) {os : List Occurrence}
    (hwithdraws : s.Throughout Withdrawing os) :
    (InStep (s.meetAll os) ∧ (s.Throughout Retaining os → s.Tight → Tight (s.meetAll os))) ∨
      Spoilt (s.meetAll os) ∧ ¬(s.settings.Countable ∧ ∀ o ∈ os, o.Countable) := by
  induction os generalizing s with
  | nil => exact .inl ⟨h, fun _ => id⟩
  | cons o os ih =>
    obtain ⟨hfirst, hrest⟩ := hwithdraws
    rcases h.meet hfirst with ⟨hstep, htight⟩ | ⟨hspoilt, hlists⟩
    · rcases ih hstep hrest with ⟨hall, htight'⟩ | ⟨hspoilt, hlists⟩
      · exact .inl ⟨hall, fun hretaining ht => htight' hretaining.2 (htight hretaining.1 ht)⟩
      · refine .inr ⟨hspoilt, fun hcount => hlists ⟨(s.settings_meet o).symm ▸ hcount.1, ?_⟩⟩
        exact fun o' ho' => hcount.2 o' (List.mem_cons_of_mem _ ho')
    · -- what is spoilt stays so
      exact .inr ⟨hspoilt.meetAll hrest, fun hcount =>
        hlists ⟨hcount.1, hcount.2 o List.mem_cons_self⟩⟩

end WireKeeper.Service
