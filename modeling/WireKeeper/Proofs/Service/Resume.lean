import WireKeeper.Proofs.Service.Occurrences

/-! # Starting anew in the middle of a run

The cursor is moved on with each addition, in the order of the calls, and computed anew at a start,
in the order of the names. Both give the highest address that is stored, so a service that is
started on the store of a running one goes on where that one stands. Only removals make a
difference, since the running service remembers the addresses of clients that are gone.

* `inStep_of_start`, `exists_start_of_rows`, `InStep.exists_start`: a start, and a second one;
* `add_gate`: what decides on an addition beside its address;
* `InStep.same_address`, `InStep.address_le`: two services beside each other on one store;
* `resumed_address`: the running service and the new one;
* `not_resumed_stranded`: an undo that the database refuses. -/

namespace WireKeeper.Service

variable {s : Service}

/-! ## The start -/

/-- The identity that was read or written is the one that is stored. -/
theorem identified_of_run_identity {fresh : PrivateKey} {db db' : Database} {i : ServerIdentity}
    (h : (identity fresh).run .update db = (.ok i, db')) :
    ∃ value, (db'.rows .server).get? Identity.key = some value ∧
      ServerIdentity.decode value = .ok i := by
  rw [run_identity] at h
  split at h
  · next hget =>
    cases h
    exact Identity.of_run_get (Prod.ext hget rfl)
  · obtain ⟨u, db₁, hset, hrest⟩ := Access.run_bind_eq_ok.1 h
    cases hrest
    exact ⟨_, Access.get?_of_run_put hset, ServerIdentity.decode_encode _⟩
  · cases h

/-- The server's identity is stored, and the service has its public key. -/
def Keyed (s : Service) : Prop :=
  ∃ value i, (s.store.committed.rows .server).get? Identity.key = some value ∧
    ServerIdentity.decode value = .ok i ∧ s.publicKey = i.privateKey.publicKey

/-- A store that a service was started on can be read anew: the identity is there, and so is the
bucket of the peers. -/
theorem of_start {settings : ServiceSettings} {fresh : PrivateKey} {store : Store}
    {controller : Controller} (h : start settings fresh store controller = .ok s) :
    s.Keyed ∧ ∃ t, s.store.committed.table .peers = some t := by
  obtain ⟨-, -, i, peers, db, hidentity, hall, rfl⟩ := start_eq_ok.1 h
  obtain ⟨value, hget, hi⟩ := identified_of_run_identity hidentity
  exact ⟨⟨value, i, hget, hi, rfl⟩, Peers.exists_table_of_run_all hall⟩

/-- A service that was started is in step, and its cursor is tight. -/
theorem inStep_of_start {settings : ServiceSettings} {fresh : PrivateKey} {store : Store}
    {controller : Controller} (h : start settings fresh store controller = .ok s) :
    s.InStep ∧ s.Tight := by
  obtain ⟨⟨value, identity, hget, hidentity, -⟩, htable⟩ := of_start h
  obtain ⟨i, peers, hstarted⟩ := of_start_eq_ok h
  have hpeers : s.controller.peers = peers.map projection := by rw [hstarted.controller_eq]; rfl
  have hnames : s.controller.peers.map Config.ServerPeer.name = peers.map PeerIdentity.name := by
    rw [hpeers, List.map_map]
    rfl
  have hholds : ∀ p, p ∈ peers ↔ s.store.peerRows.Holds p := fun p => by
    rw [hstarted.peerRows_eq]
    exact Rows.mem_iff_holds hstarted.read
  have hreadable : s.store.peerRows.Readable := by
    rw [hstarted.peerRows_eq]
    exact Rows.readable_of_all hstarted.read
  constructor
  -- the names at the controller are those of the peers that were read, which are those that are
  -- stored
  · refine ⟨hstarted.free, hstarted.isOpen, ⟨value, identity, hget, hidentity⟩, htable, hreadable,
      ⟨_, by rw [hstarted.controller_eq]; rfl⟩, ?_, fun name => ?_,
      ⟨_, hstarted.above, fun p hp => List.mem_map.2 ⟨p, (hholds p).2 hp, rfl⟩⟩⟩
    · rw [hnames]
      exact Rows.nodup_names hstarted.read
    · rw [hnames, List.mem_map]
      constructor
      · rintro ⟨p, hp, rfl⟩
        obtain ⟨value, hget, -⟩ := (hholds p).1 hp
        rw [Rows.contains, hget]
        rfl
      · intro hcontains
        obtain ⟨value, hget⟩ := Option.isSome_iff_exists.1 hcontains
        obtain ⟨p, hname, hp⟩ := hreadable.holds hget
        exact ⟨p, (hholds p).2 hp, hname⟩
  · refine ⟨peers.map PeerIdentity.address, ?_, fun x hx => ?_⟩
    · rw [hstarted.cursor_eq, hstarted.settings_eq]
      exact Allocation.reached_cursor _ _
    · obtain ⟨p, hp, rfl⟩ := List.mem_map.1 hx
      exact ⟨p, (hholds p).1 hp, rfl⟩

/-- A service stands **beside** another one if it is on the store of that one, with the same
settings and the same arms. -/
structure Beside (s f : Service) : Prop where
  settings_eq : f.settings = s.settings
  store_eq : f.store = s.store
  armed_eq : f.controller.armed = s.controller.armed

/-- A service stands beside itself. -/
theorem beside_self : s.Beside s := ⟨rfl, rfl, rfl⟩

/-- On a free store with an identity and readable rows a service starts with the key of that
identity, and writes nothing, whatever the database blocks. -/
theorem exists_start_of_rows {store : Store} (hfree : store.free = true)
    (hopen : store.closed = false) {value : Bytes} {i : ServerIdentity}
    (hget : (store.committed.rows .server).get? Identity.key = some value)
    (hi : ServerIdentity.decode value = .ok i)
    (htable : ∃ t, store.committed.table .peers = some t) (hreadable : store.peerRows.Readable)
    (settings : ServiceSettings) (fresh : PrivateKey) (controller : Controller) :
    ∃ cursor config, start settings fresh store controller =
      .ok ⟨settings, i.privateKey.publicKey, cursor, store, controller.load config⟩ := by
  have hidentity : (identity fresh).run .update store.committed = (.ok i, store.committed) := by
    rw [run_identity, Identity.run_get_of_row hget, hi]
  obtain ⟨t, ht⟩ := htable
  obtain ⟨peers, hpeers⟩ := hreadable.exists_all
  have hall : Peers.all.run .update store.committed = (.ok peers, store.committed) := by
    rw [Peers.run_all_of_table ht]
    exact Prod.ext hpeers rfl
  have hload : (load fresh).run .update store.committed = (.ok (i, peers), store.committed) :=
    (Access.run_bind_ok hidentity).trans (Access.run_bind_ok hall)
  rw [start, Store.update_eq_ok.2 ⟨hfree, hopen, _, hload, rfl⟩]
  exact ⟨_, _, rfl⟩

/-- A service that is in step can be started anew on its store, which stays as it is. -/
theorem InStep.exists_start (h : s.InStep) (fresh : PrivateKey) :
    ∃ f, start s.settings fresh s.store s.controller = .ok f ∧ s.Beside f := by
  obtain ⟨value, i, hget, hi⟩ := h.identified
  obtain ⟨cursor, config, hstart⟩ := exists_start_of_rows h.free h.isOpen hget hi h.table h.readable
    s.settings fresh s.controller
  exact ⟨_, hstart, rfl, rfl, rfl⟩

/-! ## The next address -/

/-- The address in what an addition gives, or the error. -/
def addressOf (r : Except ServiceError Config.Client) : Except ServiceError Net :=
  r.map fun c => c.interface.address

/-- Services in step that stand beside each other give the same answer to an addition but for the
address that they choose: it is refused before that by each of them, or the address passes the same
gate. -/
theorem add_gate (hs : s.InStep) (name : String) :
    (∃ e, ∀ (f : Service) fresh options, f.InStep → s.Beside f →
      addressOf (f.add fresh name options).1 = .error e) ∨
    ∃ gate : Except ServiceError Unit, ∀ (f : Service) fresh options, f.InStep → s.Beside f →
      addressOf (f.add fresh name options).1 =
        (f.chooseAddress options.address).bind fun a => gate.map fun _ => a := by
  have hbegin : ∀ f : Service, s.Beside f →
      f.begin = .ok (⟨.update, s.store.committed⟩, s.store.enter .update) := by
    rintro f ⟨-, hstore, -⟩
    rw [← hstore]
    exact begin_eq (hstore ▸ hs.free) (hstore ▸ hs.isOpen)
  rcases write_by_database s.store.committed name with
    ⟨e, hwrite⟩ | ⟨e, hwrite⟩ | ⟨-, hnew, hwrite⟩
  · refine .inl ⟨e, fun f fresh options _ hbeside => ?_⟩
    rw [add, hbegin f hbeside]
    simp only [hwrite]
    rfl
  · refine .inr ⟨.error e, fun f fresh options _ hbeside => ?_⟩
    rw [add, hbegin f hbeside]
    simp only [hwrite]
    cases f.chooseAddress options.address with
    | error e' => rfl
    | ok a => rfl
  · -- the controller fails if it is armed, whatever the address
    refine .inr ⟨if s.controller.armed.contains .apply then
      .error (.ofInterface (.toolFailed ArmedStep.apply.shown Rehearsal.injected)) else .ok (), ?_⟩
    intro f fresh options hf hbeside
    rw [add, hbegin f hbeside, ← hbeside.armed_eq]
    simp only [hwrite]
    cases f.chooseAddress options.address with
    | error e' => rfl
    | ok a =>
      obtain ⟨config, hconfig⟩ := hf.loaded
      -- a service in step has no other name live than those that are stored
      have hfind : config.find? (projection (f.newPeer fresh name a options)).name = none :=
        hf.find?_eq_none hconfig (hbeside.store_eq.symm ▸ hnew)
      have happly := Controller.apply_fst hconfig hfind
      simp only [Controller.stage_eq hconfig hfind]
      generalize f.controller.apply ⟨projection (f.newPeer fresh name a options)⟩ = r at happly ⊢
      obtain ⟨r, c⟩ := r
      obtain rfl : r = _ := happly
      cases f.controller.armed.contains .apply <;> rfl

/-- A tight cursor is not above the one of another service in step on the same store. -/
theorem Tight.le {f : Service} (ht : f.Tight) (hs : s.InStep) (hsettings : f.settings = s.settings)
    (hstore : f.store = s.store) : f.cursor.address.value ≤ s.cursor.address.value := by
  obtain ⟨seen, habove, hseen⟩ := hs.above
  obtain ⟨seen', hreached, hseen'⟩ := ht
  rw [hsettings] at hreached
  refine hreached.le (habove.mono fun x hx => ?_)
  obtain ⟨p, hp, rfl⟩ := hseen' x hx
  exact hseen p (hstore ▸ hp)

/-- Two services in step beside each other with tight cursors have the same cursor. -/
theorem InStep.cursor_eq {f : Service} (hs : s.InStep) (ht : s.Tight) (hf : f.InStep)
    (ht' : f.Tight) (hbeside : s.Beside f) : f.cursor = s.cursor := by
  obtain ⟨hsettings, hstore, -⟩ := hbeside
  obtain ⟨seen, habove, -⟩ := hs.above
  obtain ⟨seen', habove', -⟩ := hf.above
  rw [hsettings] at habove'
  exact habove'.ext_value habove (Nat.le_antisymm (ht'.le hs hsettings hstore)
    (ht.le hf hsettings.symm hstore.symm))

/-- Two services in step beside each other with tight cursors answer an automatic addition with the
same address, or refuse it in the same way. -/
theorem InStep.same_address {f : Service} (hs : s.InStep) (ht : s.Tight) (hf : f.InStep)
    (ht' : f.Tight) (hbeside : s.Beside f) (key : PrivateKey) (name : String)
    {options : AddOptions} (hauto : options.address = none) :
    addressOf (s.add key name options).1 = addressOf (f.add key name options).1 := by
  rcases add_gate hs name with ⟨e, hgate⟩ | ⟨gate, hgate⟩
  · rw [hgate s key options hs beside_self, hgate f key options hf hbeside]
  · rw [hgate s key options hs beside_self, hgate f key options hf hbeside, hauto, chooseAddress,
      chooseAddress, hs.cursor_eq ht hf ht' hbeside, hbeside.settings_eq]

/-- A service in step gives no lower address to an automatic addition than one beside it whose
cursor is tight, unless it is exhausted; or both refuse it in the same way. -/
theorem InStep.address_le {f : Service} (hs : s.InStep) (hf : f.InStep) (ht : f.Tight)
    (hbeside : s.Beside f) (key : PrivateKey) (name : String) {options : AddOptions}
    (hauto : options.address = none) :
    (∃ a a', addressOf (s.add key name options).1 = .ok a ∧
      addressOf (f.add key name options).1 = .ok a' ∧ a'.address.value ≤ a.address.value) ∨
    addressOf (s.add key name options).1 = .error (.exhausted s.settings.address.network) ∨
    ∃ e, addressOf (s.add key name options).1 = .error e ∧
      addressOf (f.add key name options).1 = .error e := by
  -- the tight cursor has reached a stored address, and the other one is above all of them
  have hle := ht.le hs hbeside.settings_eq hbeside.store_eq
  obtain ⟨seen, habove, -⟩ := hs.above
  obtain ⟨seen', habove', -⟩ := hf.above
  rw [hbeside.settings_eq] at habove'
  rcases add_gate hs name with ⟨e, hgate⟩ | ⟨gate, hgate⟩
  · exact .inr (.inr ⟨e, hgate s key options hs beside_self, hgate f key options hf hbeside⟩)
  · rw [hgate s key options hs beside_self, hgate f key options hf hbeside, hauto, chooseAddress,
      chooseAddress, hbeside.settings_eq]
    by_cases hroom : s.cursor.address.value + 1 < s.settings.address.network.last.value
    · have hnext := (Allocation.next_eq habove).trans (if_pos hroom)
      obtain ⟨a', hnext', hle'⟩ := Allocation.next_le habove habove' hle hnext
      rw [hnext, hnext']
      cases gate with
      | ok u => exact .inl ⟨_, a', rfl, rfl, hle'⟩
      | error e => exact .inr (.inr ⟨e, rfl, rfl⟩)
    · right
      left
      rw [(Allocation.next_eq habove).trans (if_neg hroom)]
      rfl

/-- **The cursor and its recomputation at the start agree.** After any run in which the database
takes every undo that it comes to, whatever else it blocks, a service can be started anew on the
store if all lists can be counted; and whenever one is started there, the two stand in step. If no
removal has succeeded, the next automatic addition gives the same address, or fails in the same way,
whether it is asked of the running service or of the new one. Otherwise the running service gives an
address that is not below, or is exhausted, or fails as the new one does. -/
theorem resumed_address {settings : ServiceSettings} {fresh fresh' : PrivateKey} {store : Store}
    {controller : Controller} (hstart : start settings fresh store controller = .ok s)
    {os : List Occurrence} (hwithdraws : s.Throughout Withdrawing os) :
    (settings.Countable → (∀ o ∈ os, o.Countable) →
      ∃ f, start settings fresh' (s.meetAll os).store (s.meetAll os).controller = .ok f) ∧
    ∀ f, start settings fresh' (s.meetAll os).store (s.meetAll os).controller = .ok f →
      (s.Throughout Retaining os → ∀ key name options, options.address = none →
        addressOf ((s.meetAll os).add key name options).1 =
          addressOf (f.add key name options).1) ∧
      ∀ key name options, options.address = none →
        (∃ a a', addressOf ((s.meetAll os).add key name options).1 = .ok a ∧
          addressOf (f.add key name options).1 = .ok a' ∧ a'.address.value ≤ a.address.value) ∨
        addressOf ((s.meetAll os).add key name options).1 =
          .error (.exhausted settings.address.network) ∨
        ∃ e, addressOf ((s.meetAll os).add key name options).1 = .error e ∧
          addressOf (f.add key name options).1 = .error e := by
  obtain ⟨hs, ht⟩ := inStep_of_start hstart
  obtain ⟨i, peers, hstarted⟩ := of_start_eq_ok hstart
  have hmet := hs.meetAll hwithdraws
  rw [hstarted.settings_eq] at hmet
  have hsettings : (s.meetAll os).settings = settings :=
    (s.settings_meetAll os).trans hstarted.settings_eq
  generalize s.meetAll os = r at hmet hsettings ⊢
  subst hsettings
  constructor
  · intro hlists hos
    rcases hmet with ⟨hr, -⟩ | ⟨-, hspoilt⟩
    · obtain ⟨f, hf, -⟩ := hr.exists_start fresh'
      exact ⟨f, hf⟩
    · exact absurd ⟨hlists, hos⟩ hspoilt
  · intro f hf
    -- where a service was started, the store is not spoilt
    obtain ⟨hr, htight⟩ := hmet.resolve_right fun hspoilt => hspoilt.1.start_ne_ok hf
    obtain ⟨f', hf', hbeside⟩ := hr.exists_start fresh'
    cases hf'.symm.trans hf
    obtain ⟨hfs, hft⟩ := inStep_of_start hf
    exact ⟨fun hretaining key name options => hr.same_address (htight hretaining ht) hfs hft
        hbeside key name,
      fun key name options => hr.address_le hfs hft hbeside key name⟩

/-- On a database that refuses nothing, every call of a run withdraws. -/
theorem throughout_withdrawing (h : s.Linked) {calls : List Call}
    (hcalls : ∀ c ∈ calls, (Event.call c).Countable) :
    s.Throughout Withdrawing (calls.map .call) := by
  induction calls generalizing s with
  | nil => trivial
  | cons c calls ih =>
    obtain ⟨s', hs', hlinked⟩ := h.step (hcalls c List.mem_cons_self)
    cases hs'
    exact ⟨withdraws_of_sound h.sound h.free h.isOpen c,
      ih hlinked fun c' hc' => hcalls c' (List.mem_cons_of_mem _ hc')⟩

/-- An addition that is undone, one at `10.9.8.40`, and a removal that is undone. -/
def undoneCalls : List Call :=
  [.arm .apply, .add ⟨.ofNat 2⟩ "alice" {},
    .add ⟨.ofNat 3⟩ "alice" { address := some (Net.host (.ofNat .v4 0x0A090828)) },
    .arm .remove, .remove "alice"]

/-- The sample service is linked. -/
theorem linked_startSample (h : startSample = .ok s) : s.Linked := by
  have hcountable : sampleSettings.Countable := ⟨by decide, by decide⟩
  have hidentified : Identified ({} : Store).committed := by
    intro value h
    cases h
  have hreadable : ({} : Store).peerRows.Readable := fun r hr => absurd hr List.not_mem_nil
  obtain ⟨s', hs', hlinked⟩ := exists_start_linked hcountable Database.sound_empty rfl rfl
    hidentified hreadable ⟨.ofNat 1⟩ ⟨"wg0.conf", "wg0", none, []⟩
  cases hs'.symm.trans h
  exact hlinked

/-- After these, the running service and a new one give the same address, which is the one after
that of the client. -/
theorem resumed_address_undone :
    ∃ s f, startSample = .ok s ∧
      start sampleSettings ⟨.ofNat 4⟩ (s.meetAll (undoneCalls.map .call)).store
        (s.meetAll (undoneCalls.map .call)).controller = .ok f ∧
      addressOf ((s.meetAll (undoneCalls.map .call)).add ⟨.ofNat 5⟩ "bob" {}).1 =
        .ok (sampleSettings.address.withValue 0x0A090829) ∧
      addressOf (f.add ⟨.ofNat 5⟩ "bob" {}).1 =
        .ok (sampleSettings.address.withValue 0x0A090829) := by
  have hok : startSample.toOption.map (fun s =>
      (decide (s.Throughout Retaining (undoneCalls.map .call)),
        addressOf ((s.meetAll (undoneCalls.map .call)).add ⟨.ofNat 5⟩ "bob" {}).1)) =
          some (true, .ok (sampleSettings.address.withValue 0x0A090829)) := by
    decide +kernel
  obtain ⟨s, hs, hseen⟩ := exists_of_toOption_map hok
  obtain ⟨hretaining, haddress⟩ := Prod.mk.inj hseen
  have hcalls : ∀ c ∈ undoneCalls, (Event.call c).Countable := by
    have hoptions : ∀ a, AddOptions.Countable { address := a } :=
      fun a => ⟨fun dns h => (nomatch h), twoPow_pos 32⟩
    simp only [undoneCalls, List.forall_mem_cons, List.not_mem_nil, false_implies, implies_true,
      and_true]
    exact ⟨trivial, hoptions _, hoptions _, trivial, trivial⟩
  have hwithdraws := throughout_withdrawing (linked_startSample hs) hcalls
  have hos : ∀ o ∈ undoneCalls.map Occurrence.call, o.Countable := by
    intro o ho
    obtain ⟨c, hc, rfl⟩ := List.mem_map.1 ho
    exact hcalls c hc
  obtain ⟨hexists, hall⟩ := resumed_address hs hwithdraws
  obtain ⟨f, hf⟩ := hexists ⟨by decide, by decide⟩ hos
  refine ⟨s, f, hs, hf, haddress, ?_⟩
  -- no removal has succeeded, so the new service answers as the running one
  rw [← (hall f hf).1 (of_decide_eq_true hretaining) _ _ _ rfl]
  exact haddress

/-- An addition whose undo the database refuses. -/
def strandedRun : List Occurrence :=
  [.block .peers .delete true, .call (.arm .apply), .call (.add ⟨.ofNat 2⟩ "alice" {})]

/-- An addition whose undo the database refuses leaves a record that the cursor does not know of:
the running service gives its address once more, a new one does not. -/
theorem not_resumed_stranded :
    ∃ s f, startSample = .ok s ∧ s.Throughout Retaining strandedRun ∧
      start sampleSettings ⟨.ofNat 4⟩ (s.meetAll strandedRun).store
        (s.meetAll strandedRun).controller = .ok f ∧
      addressOf ((s.meetAll strandedRun).add ⟨.ofNat 3⟩ "bob" {}).1 =
        .ok (sampleSettings.address.withValue 0x0A090802) ∧
      addressOf (f.add ⟨.ofNat 3⟩ "bob" {}).1 =
        .ok (sampleSettings.address.withValue 0x0A090803) := by
  have hok : startSample.toOption.map (fun s =>
      (decide (s.Throughout Retaining strandedRun),
        addressOf ((s.meetAll strandedRun).add ⟨.ofNat 3⟩ "bob" {}).1,
        (start sampleSettings ⟨.ofNat 4⟩ (s.meetAll strandedRun).store
          (s.meetAll strandedRun).controller).toOption.map fun f =>
            addressOf (f.add ⟨.ofNat 3⟩ "bob" {}).1)) =
      some (true, .ok (sampleSettings.address.withValue 0x0A090802),
        some (.ok (sampleSettings.address.withValue 0x0A090803))) := by
    decide +kernel
  obtain ⟨s, hs, hseen⟩ := exists_of_toOption_map hok
  obtain ⟨hretaining, hrest⟩ := Prod.mk.inj hseen
  obtain ⟨hrunning, hanew⟩ := Prod.mk.inj hrest
  obtain ⟨f, hf, hfresh⟩ := exists_of_toOption_map hanew
  exact ⟨s, f, hs, of_decide_eq_true hretaining, hf, hrunning, hfresh⟩

end WireKeeper.Service
