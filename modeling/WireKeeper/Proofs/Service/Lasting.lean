import WireKeeper.Proofs.Service.Listing
import WireKeeper.Proofs.Service.Resume

/-! # Clients last

An addition makes the configuration of its client from memory. Whatever is read of the client later
is made from a row, which an undone removal has written anew, perhaps by a service that was started
after that. It is the same configuration, until a removal of the client succeeds: additions write
under new names only, and an undo brings back what the removal took.

Only a removal that fails although its commit stays, since the database refuses the undo, takes the
record away all the same. Such a removal does not **restore** the client.

* `Incident`, `undergoAll`: runs of calls, restarts and what the database blocks;
* `Along`, `Retains`, `Restores`: what holds along such a run;
* `Standing`: a service that can be read and started anew, which every incident preserves;
* `Serves`: the configuration of a client, which every incident that retains and restores it
  preserves;
* `lasting_config`: a client that was added is served until it is removed;
* `not_lasting_stranded`: a removal that does not restore. -/

namespace WireKeeper.Service

/-! ## Incidents -/

/-- What can happen to a service and to its database: an event, or that the database blocks or
unblocks something. -/
inductive Incident where
  | event (e : Event)
  | block (b : Bucket) (verb : Verb) (on : Bool)

/-- The lists of an incident can be counted. -/
def Incident.Countable : Incident → Prop
  | .event e => e.Countable
  | .block .. => True

/-- The service after an incident; only a restart can fail. -/
def undergo (s : Service) : Incident → Except ServiceError Service
  | .event e => s.step e
  | .block b verb on => .ok (s.meet (.block b verb on))

/-- The service after some incidents, up to the first restart that fails. -/
def undergoAll (s : Service) : List Incident → Except ServiceError Service
  | [] => .ok s
  | i :: is =>
    match s.undergo i with
    | .ok s => s.undergoAll is
    | .error e => .error e

/-- What a service undergoes where the database blocks nothing is a run. -/
theorem undergoAll_events (s : Service) (events : List Event) :
    s.undergoAll (events.map .event) = s.run events := by
  induction events generalizing s with
  | nil => rfl
  | cons e es ih =>
    rw [List.map_cons, undergoAll, run, undergo]
    cases s.step e with
    | error e => rfl
    | ok s' => exact ih s'

/-- Events whose lists can be counted are such incidents. -/
theorem countable_events {events : List Event} (h : ∀ e ∈ events, Event.Countable e) :
    ∀ i ∈ events.map Incident.event, i.Countable := by
  intro i hi
  obtain ⟨e, he, rfl⟩ := List.mem_map.1 hi
  exact h e he

/-- Something holds of a service and of what it undergoes, each time. -/
def Along (P : Service → Incident → Prop) : Service → List Incident → Prop
  | _, [] => True
  | s, i :: is =>
    P s i ∧
      match s.undergo i with
      | .ok s => Along P s is
      | .error _ => True

/-- An incident **retains** a client if it is no removal of the client that succeeds. -/
def Retains (name : String) (s : Service) : Incident → Prop
  | .event (.call (.remove other)) => other = name → (s.remove other).1.isOk = false
  | _ => True

/-- An incident **restores** a client if the database takes the undo of a removal of the client, if
it comes to one. -/
def Restores (name : String) (s : Service) : Incident → Prop
  | .event (.call (.remove other)) => other = name → s.Withdraws (.remove other)
  | _ => True

/-- Whether no removal of a client succeeds can be decided, by making it. -/
instance decidableRetains (name : String) (s : Service) :
    (i : Incident) → Decidable (s.Retains name i)
  | .event (.call (.remove other)) =>
    inferInstanceAs (Decidable (other = name → (s.remove other).1.isOk = false))
  | .event (.call (.add ..)) | .event (.call (.get _)) | .event (.call .infos)
  | .event (.call (.arm _)) | .event (.restart _) | .block .. => .isTrue trivial

/-- What can be decided of each incident can be decided of a run. -/
instance decidableAlong {P : Service → Incident → Prop} [∀ s i, Decidable (P s i)] :
    (s : Service) → (is : List Incident) → Decidable (s.Along P is)
  | _, [] => .isTrue trivial
  | s, i :: is =>
    have : Decidable (match s.undergo i with
        | .ok s => Along P s is
        | .error _ => True) :=
      match s.undergo i with
      | .ok s => decidableAlong s is
      | .error _ => .isTrue trivial
    inferInstanceAs (Decidable (_ ∧ _))

/-! ## The invariant -/

/-- A service **stands** if its store is free, its rows are read, and it has the key of the service;
so it can be read and started anew. -/
structure Standing (s : Service) : Prop where
  countable : s.settings.Countable
  free : s.store.free = true
  isOpen : s.store.closed = false
  keyed : s.Keyed
  table : ∃ t, s.store.committed.table .peers = some t
  readable : s.store.peerRows.Readable

/-- A service **continues** as another one that stands, for the same server. -/
structure Continues (s f : Service) : Prop where
  standing : f.Standing
  settings_eq : f.settings = s.settings
  publicKey_eq : f.publicKey = s.publicKey

/-- A service **serves** a configuration under a name if it holds a client of the name with this
configuration. -/
def Serves (s : Service) (name : String) (c : Config.Client) : Prop :=
  ∃ p, s.store.peerRows.Holds p ∧ p.name = name ∧ s.clientConfig p = c

variable {s f : Service} {name : String} {c : Config.Client}

/-- A service that was started stands, if its settings can be counted. -/
theorem standing_of_start {settings : ServiceSettings} {fresh : PrivateKey} {store : Store}
    {controller : Controller} (h : start settings fresh store controller = .ok s)
    (hcountable : settings.Countable) : s.Standing := by
  obtain ⟨hkeyed, htable⟩ := of_start h
  obtain ⟨i, peers, hstarted⟩ := of_start_eq_ok h
  have hreadable : s.store.peerRows.Readable := by
    rw [hstarted.peerRows_eq]
    exact Rows.readable_of_all hstarted.read
  exact ⟨hstarted.settings_eq.symm ▸ hcountable, hstarted.free, hstarted.isOpen, hkeyed, htable,
    hreadable⟩

/-- The clients of a service that stands can be looked at. -/
theorem Standing.viewable (h : s.Standing) : s.store.Viewable :=
  ⟨(Store.free_iff.1 h.free).1, h.isOpen, h.table⟩

/-- A service that stands goes on as itself. -/
theorem Standing.continues (h : s.Standing) : s.Continues s := ⟨h, rfl, rfl⟩

/-- A service goes on as one that another one goes on as. -/
theorem Continues.trans {g : Service} (h : s.Continues f) (h' : f.Continues g) : s.Continues g :=
  ⟨h'.standing, h'.settings_eq.trans h.settings_eq, h'.publicKey_eq.trans h.publicKey_eq⟩

/-- A client is served as before by a service that has not lost it. -/
theorem Continues.serves (h : s.Continues f) (hs : s.Serves name c)
    (hholds : ∀ p, p.name = name → s.store.peerRows.Holds p → f.store.peerRows.Holds p) :
    f.Serves name c := by
  obtain ⟨p, hp, hname, rfl⟩ := hs
  refine ⟨p, hholds p hname hp, hname, ?_⟩
  rw [clientConfig, clientConfig, h.settings_eq, h.publicKey_eq]

/-- A service goes on with any other rows that are read, whatever its controller and its cursor. -/
theorem Standing.withRows (h : s.Standing) {rows : Rows} (hreadable : rows.Readable)
    {controller : Controller} {cursor : Net} :
    s.Continues { s.withRows rows controller with cursor := cursor } := by
  have hrows := peerRows_withRows h.table rows controller
  refine ⟨⟨h.countable, h.free, h.isOpen, ?_, ?_, hrows.symm ▸ hreadable⟩, rfl, rfl⟩
  · obtain ⟨value, i, hget, hi, hkey⟩ := h.keyed
    refine ⟨value, i, ?_, hi, hkey⟩
    rw [← hget]
    exact congrArg (Rows.get? · _) (Database.rows_setRows_of_ne (by decide) rows)
  · obtain ⟨t, ht⟩ := h.table
    exact ⟨_, Database.table_setRows ht rows⟩

/-- The arms of the controller do not matter, nor anything else at it. -/
theorem Standing.controller (h : s.Standing) (controller : Controller) :
    s.Continues { s with controller := controller } :=
  ⟨⟨h.countable, h.free, h.isOpen, h.keyed, h.table, h.readable⟩, rfl, rfl⟩

/-! ## Adding -/

/-- An addition loses no client, even if the database refuses to undo it: then there is one more
than should be. -/
theorem Standing.add (h : s.Standing) (fresh : PrivateKey) (name : String) {options : AddOptions}
    (hoptions : options.Countable) :
    s.Continues (s.add fresh name options).2 ∧
      ∀ p, s.store.peerRows.Holds p → (s.add fresh name options).2.store.peerRows.Holds p := by
  have hcount := countable_newPeer h.countable hoptions fresh name
  by_cases hwithdraws : s.Withdraws (.add fresh name options)
  · have hresult := add_result h.free h.isOpen fresh name options hwithdraws
    generalize s.add fresh name options = r at hresult ⊢
    cases hresult with
    | refused => exact ⟨h.continues, fun _ => id⟩
    | undone _ controller => exact ⟨h.controller controller, fun _ => id⟩
    | added a config htable hnew =>
      -- the row of the new client is written under a name of its own
      refine ⟨h.withRows (h.readable.insert (hcount a)), fun p hp => ?_⟩
      rw [peerRows_enrolled htable]
      exact hp.insert_new (q := s.newPeer fresh name a options) (hcount a) hnew
  · -- the row stays although the addition fails, but its name is a new one all the same
    obtain ⟨a, e, controller, htable, hnew, hadd⟩ := add_stranded h.free h.isOpen hwithdraws
    rw [hadd]
    refine ⟨h.withRows (h.readable.insert (hcount a)), fun p hp => ?_⟩
    rw [peerRows_withRows htable]
    exact hp.insert_new (q := s.newPeer fresh name a options) (hcount a) hnew

/-- A client that was added is served with the configuration that was given. -/
theorem Standing.serves_added (h : s.Standing) {fresh : PrivateKey} {options : AddOptions}
    (hoptions : options.Countable) (hadd : s.add fresh name options = (.ok c, f)) :
    f.Serves name c := by
  have hresult := add_result h.free h.isOpen fresh name options (withdraws_of_add_eq_ok hadd)
  rw [hadd] at hresult
  cases hresult with
  | added a config htable =>
    have hcount := countable_newPeer h.countable hoptions fresh name a
    refine ⟨s.newPeer fresh name a options, ?_, rfl, rfl⟩
    rw [peerRows_enrolled htable]
    exact (Rows.holds_insert hcount).2 (.inl rfl)

/-! ## Removing -/

/-- A removal goes on with the service, whatever becomes of it. -/
theorem Standing.remove (h : s.Standing) (name : String) : s.Continues (s.remove name).2 := by
  by_cases hwithdraws : s.Withdraws (.remove name)
  · have hresult := remove_result h.free h.isOpen name hwithdraws
    generalize s.remove name = r at hresult ⊢
    cases hresult with
    | refused => exact h.continues
    | undone _ _ p value _ hget hp =>
      obtain ⟨-, hholds⟩ := Rows.holds_of_decode hget hp
      exact h.withRows (h.readable.insert hholds.countable)
    | removed => exact h.withRows (h.readable.erase _)
  · obtain ⟨e, controller, -, hremove⟩ := remove_stranded h.free h.isOpen hwithdraws
    rw [hremove]
    exact h.withRows (h.readable.erase _)

/-- A removal loses no client of another name, and none of its own name if it fails and the database
takes its undo. -/
theorem Standing.holds_remove (h : s.Standing) {other : String} {p : PeerIdentity}
    (hp : s.store.peerRows.Holds p)
    (hfails : other = p.name → (s.remove other).1.isOk = false)
    (hwithdraws : other = p.name → s.Withdraws (.remove other)) :
    (s.remove other).2.store.peerRows.Holds p := by
  by_cases hundo : s.Withdraws (.remove other)
  · have hresult := remove_result h.free h.isOpen other hundo
    generalize s.remove other = r at hresult hfails ⊢
    cases hresult with
    | refused => exact hp
    | undone _ _ q value hname hget hq =>
      -- what is written anew is what was read
      obtain ⟨-, hholds⟩ := Rows.holds_of_decode hget hq
      rw [peerRows_withRows h.table]
      exact (Rows.holds_insert_of_holds hholds).2 hp
    | removed =>
      rw [peerRows_withRows h.table]
      exact Rows.holds_erase.2 ⟨fun hname => Bool.noConfusion (hfails hname.symm), hp⟩
  · -- the row that is gone is one of another name
    obtain ⟨e, controller, htable, hremove⟩ := remove_stranded h.free h.isOpen hundo
    rw [hremove, peerRows_withRows htable]
    exact Rows.holds_erase.2 ⟨fun hname => hundo (hwithdraws hname.symm), hp⟩

/-! ## Restarts and blocks -/

/-- A service that stands can be started anew, and the new one goes on for it on the same store. -/
theorem Standing.restart (h : s.Standing) (fresh : PrivateKey) :
    ∃ f, s.step (.restart fresh) = .ok f ∧ s.Continues f ∧ f.store = s.store := by
  obtain ⟨value, i, hget, hi, hkey⟩ := h.keyed
  obtain ⟨cursor, config, hstart⟩ := exists_start_of_rows h.free h.isOpen hget hi h.table h.readable
    s.settings fresh s.controller
  have hkeyed : Keyed ⟨s.settings, i.privateKey.publicKey, cursor, s.store,
    s.controller.load config⟩ := ⟨value, i, hget, hi, rfl⟩
  exact ⟨_, hstart, ⟨⟨h.countable, h.free, h.isOpen, hkeyed, h.table, h.readable⟩, rfl, hkey.symm⟩,
    rfl⟩

/-- What the database blocks changes no row. -/
theorem Standing.block (h : s.Standing) (b : Bucket) (verb : Verb) (on : Bool) :
    s.Continues (s.meet (.block b verb on)) ∧
      (s.meet (.block b verb on)).store.peerRows = s.store.peerRows := by
  rw [meet]
  cases hblock : s.store.committed.setBlock b verb on with
  | error e => exact ⟨h.continues, rfl⟩
  | ok db =>
    have hrows : (s.store.withCommitted db).peerRows = s.store.peerRows :=
      Database.rows_of_setBlock hblock
    obtain ⟨value, i, hget, hi, hkey⟩ := h.keyed
    have hkeyed : Keyed { s with store := s.store.withCommitted db } :=
      ⟨value, i, (congrArg (Rows.get? · _) (Database.rows_of_setBlock hblock)).trans hget, hi, hkey⟩
    have htable := Database.exists_table_of_setBlock hblock h.table
    exact ⟨⟨⟨h.countable, h.free, h.isOpen, hkeyed, htable, hrows.symm ▸ h.readable⟩, rfl, rfl⟩,
      hrows⟩

/-! ## Runs -/

/-- Every incident goes on with the service, which serves each client as before if the incident
retains and restores it. This is the step of the invariant. -/
theorem Standing.undergo (h : s.Standing) {i : Incident} (hi : i.Countable) :
    ∃ f, s.undergo i = .ok f ∧ s.Continues f ∧
      ∀ name c, s.Retains name i → s.Restores name i → s.Serves name c → f.Serves name c := by
  cases i with
  | block b verb on =>
    obtain ⟨hcontinues, hrows⟩ := h.block b verb on
    exact ⟨_, rfl, hcontinues, fun name c _ _ hs =>
      hcontinues.serves hs fun p _ hp => hrows.symm ▸ hp⟩
  | event e =>
    cases e with
    | restart fresh =>
      obtain ⟨f, hf, hcontinues, hstore⟩ := h.restart fresh
      exact ⟨f, hf, hcontinues, fun name c _ _ hs =>
        hcontinues.serves hs fun p _ hp => hstore.symm ▸ hp⟩
    | call c =>
      refine ⟨s.after c, rfl, ?_⟩
      cases c with
      | add fresh other options =>
        obtain ⟨hcontinues, hholds⟩ := h.add fresh other hi
        exact ⟨hcontinues, fun name c _ _ hs => hcontinues.serves hs fun p _ => hholds p⟩
      | remove other =>
        -- the one incident that can lose a client
        refine ⟨h.remove other, fun name c hretains hrestores hs => ?_⟩
        refine (h.remove other).serves hs fun p hname hp => ?_
        subst hname
        exact h.holds_remove hp hretains hrestores
      | get other => exact ⟨h.continues, fun _ _ _ _ => id⟩
      | infos => exact ⟨h.continues, fun _ _ _ _ => id⟩
      | arm step =>
        have hcontinues := h.controller (s.controller.arm step)
        exact ⟨hcontinues, fun name c _ _ hs => hcontinues.serves hs fun _ _ => id⟩

/-- Every run goes on with the service, which serves each client as before if it is retained and
restored all along the run. -/
theorem Standing.undergoAll (h : s.Standing) {is : List Incident} (his : ∀ i ∈ is, i.Countable) :
    ∃ f, s.undergoAll is = .ok f ∧ s.Continues f ∧
      ∀ name c, s.Along (Retains name) is → s.Along (Restores name) is → s.Serves name c →
        f.Serves name c := by
  induction is generalizing s with
  | nil => exact ⟨s, rfl, h.continues, fun _ _ _ _ => id⟩
  | cons i is ih =>
    obtain ⟨g, hg, hsg, hserves⟩ := h.undergo (his i List.mem_cons_self)
    obtain ⟨f, hf, hgf, hserves'⟩ :=
      ih hsg.standing fun i' hi' => his i' (List.mem_cons_of_mem i hi')
    refine ⟨f, ?_, hsg.trans hgf, fun name c hretains hrestores hs => ?_⟩
    · rw [Service.undergoAll, hg]
      exact hf
    · rw [Along, hg] at hretains hrestores
      exact hserves' name c hretains.2 hrestores.2
        (hserves name c hretains.1 hrestores.1 hs)

/-! ## Reading -/

/-- The one item with a key, when all keys are different: filtering for the key gives it alone. -/
theorem filter_key_eq_singleton {α κ : Type} [DecidableEq κ] {key : α → κ} {l : List α}
    (h : (l.map key).Nodup) {a : α} (ha : a ∈ l) :
    (l.filter fun x => key x = key a) = [a] := by
  induction l with
  | nil => cases ha
  | cons x xs ih =>
    rw [List.map_cons, List.nodup_cons] at h
    obtain ⟨hx, hxs⟩ := h
    rw [List.filter_cons]
    rcases List.mem_cons.1 ha with rfl | ha
    · -- the key stands nowhere behind
      have hnil : xs.filter (fun y => key y = key a) = [] := by
        refine List.filter_eq_nil_iff.2 fun y hy hkey => hx ?_
        exact List.mem_map.2 ⟨y, hy, of_decide_eq_true hkey⟩
      rw [if_pos (decide_eq_true rfl), hnil]
    · have hne : ¬decide (key x = key a) = true := fun hkey =>
        hx (List.mem_map.2 ⟨a, ha, (of_decide_eq_true hkey).symm⟩)
      rw [if_neg hne, ih hxs ha]

/-- A client that is served is got with its configuration. -/
theorem Standing.get_of_serves (h : s.Standing) (hs : s.Serves name c) : s.get name = .ok c := by
  obtain ⟨p, hp, rfl, rfl⟩ := hs
  exact get_of_holds h.viewable.idle h.isOpen hp

/-- A client that is served is listed once, with its configuration, whatever the tools say. -/
theorem Standing.infos_of_serves (h : s.Standing) (hs : s.Serves name c) {σ : Type}
    (tools : Toolbox σ) (host : Host σ) :
    ∃ infos, (s.infos tools host).1 = .ok infos ∧
      ((infos.map ClientInfo.config).filter fun c' => c'.interface.name = some name) = [c] := by
  obtain ⟨p, hp, rfl, rfl⟩ := hs
  obtain ⟨ps, hps⟩ := h.readable.exists_all
  -- a configuration has the name of its client, and no two clients have the same one
  have hnames : (ps.map fun q => some q.name).Nodup := by
    have hmap := (Rows.nodup_names hps).map (Option.some_injective String)
    rwa [List.map_map] at hmap
  refine ⟨_, infos_eq_ok.2 ⟨ps, Store.view_all_eq_ok.2 ⟨h.viewable, hps⟩, rfl⟩, ?_⟩
  rw [List.map_map, List.filter_map]
  exact congrArg (List.map s.clientConfig)
    (filter_key_eq_singleton hnames ((Rows.mem_iff_holds hps).2 hp))

/-- **A client lasts until it is removed.** Whatever a started service undergoes before and after
the addition of a client, calls that succeed or fail in any way, restarts, and a database that
refuses what it likes but the undo of a removal of this client: as long as no removal of the client
succeeds, it is got with the very configuration that its addition gave, and it is listed once, with
that configuration. No restart fails. -/
theorem lasting_config {settings : ServiceSettings} {fresh : PrivateKey} {store : Store}
    {controller : Controller} (hstart : start settings fresh store controller = .ok s)
    (hsettings : settings.Countable) {before : List Incident}
    (hbefore : ∀ i ∈ before, i.Countable) :
    ∃ f, s.undergoAll before = .ok f ∧
      ∀ key name options c g, AddOptions.Countable options →
        f.add key name options = (.ok c, g) →
        ∀ after, (∀ i ∈ after, Incident.Countable i) → g.Along (Retains name) after →
          g.Along (Restores name) after →
          ∃ g', g.undergoAll after = .ok g' ∧ g'.get name = .ok c ∧
            ∀ (σ : Type) (tools : Toolbox σ) (host : Host σ), ∃ infos,
              (g'.infos tools host).1 = .ok infos ∧
              ((infos.map ClientInfo.config).filter
                fun c' => c'.interface.name = some name) = [c] := by
  obtain ⟨f, hf, hsf, -⟩ := (standing_of_start hstart hsettings).undergoAll hbefore
  refine ⟨f, hf, fun key name options c g hoptions hadd after hafter hretains hrestores => ?_⟩
  have hg := (hsf.standing.add key name hoptions).1.standing
  rw [hadd] at hg
  have hserves := hsf.standing.serves_added hoptions hadd
  obtain ⟨g', hg', hgg', hlast⟩ := hg.undergoAll hafter
  have hserves' := hlast name c hretains hrestores hserves
  exact ⟨g', hg', hgg'.standing.get_of_serves hserves',
    fun σ tools host => hgg'.standing.infos_of_serves hserves' tools host⟩

/-- On a database that refuses nothing, every client is restored all along every run. -/
theorem Linked.along_restores (h : s.Linked) {events : List Event}
    (hevents : ∀ e ∈ events, Event.Countable e) (name : String) :
    s.Along (Restores name) (events.map .event) := by
  induction events generalizing s with
  | nil => trivial
  | cons e es ih =>
    obtain ⟨s', hs', hlinked⟩ := h.step (hevents e List.mem_cons_self)
    rw [List.map_cons, Along, undergo, hs']
    refine ⟨?_, ih hlinked fun e' he' => hevents e' (List.mem_cons_of_mem e he')⟩
    cases e with
    | restart => trivial
    | call c =>
      cases c with
      | remove other => exact fun _ => withdraws_of_sound h.sound h.free h.isOpen _
      | add | get | infos | arm => trivial

/-- An addition of `alice` that is undone. -/
def hesitantRun : List Event := [.call (.arm .apply), .call (.add ⟨.ofNat 2⟩ "alice" {})]

/-- A removal of `alice` that is undone, a restart, a second client of her name that is refused, and
another client who comes and goes. -/
def eventfulRun : List Event :=
  [.call (.arm .remove), .call (.remove "alice"), .restart ⟨.ofNat 4⟩,
    .call (.add ⟨.ofNat 5⟩ "alice" {}), .call (.add ⟨.ofNat 6⟩ "bob" {}), .call (.remove "bob")]

/-- After these, `alice` is got with the configuration that she was added with. -/
theorem lasting_config_eventful :
    ∃ s f c g g', startSample = .ok s ∧ s.run hesitantRun = .ok f ∧
      f.add ⟨.ofNat 3⟩ "alice" {} = (.ok c, g) ∧ g.run eventfulRun = .ok g' ∧
      g'.get "alice" = .ok c := by
  have hok : startSample.toOption.map (fun s => (s.run hesitantRun).toOption.map fun f =>
      ((f.add ⟨.ofNat 3⟩ "alice" {}).1.toOption.isSome,
        decide ((f.add ⟨.ofNat 3⟩ "alice" {}).2.Along (Retains "alice")
          (eventfulRun.map .event)))) = some (some (true, true)) := by
    decide +kernel
  obtain ⟨s, hs, hran⟩ := exists_of_toOption_map hok
  obtain ⟨f, hf, hseen⟩ := exists_of_toOption_map hran
  obtain ⟨hadded, hretains⟩ := Prod.mk.inj hseen
  obtain ⟨c, g, hadd⟩ := exists_eq_ok_of_isSome hadded
  rw [hadd] at hretains
  -- all lists are empty
  have hoptions : AddOptions.Countable {} := ⟨fun dns h => (nomatch h), twoPow_pos 32⟩
  have hbefore : ∀ e ∈ hesitantRun, Event.Countable e := by
    simp only [hesitantRun, List.forall_mem_cons, List.not_mem_nil, false_implies, implies_true,
      and_true]
    exact ⟨trivial, hoptions⟩
  have hafter : ∀ e ∈ eventfulRun, Event.Countable e := by
    simp only [eventfulRun, List.forall_mem_cons, List.not_mem_nil, false_implies, implies_true,
      and_true]
    exact ⟨trivial, trivial, trivial, hoptions, hoptions, trivial⟩
  -- the database of the sample refuses nothing
  obtain ⟨f', hf', hlinked⟩ := (linked_startSample hs).run hbefore
  cases hf'.symm.trans hf
  have hlinked' := hlinked.add hoptions ⟨.ofNat 3⟩ "alice"
  rw [hadd] at hlinked'
  obtain ⟨f', hf', hlast⟩ :=
    lasting_config hs ⟨by decide, by decide⟩ (countable_events hbefore)
  cases hf'.symm.trans ((s.undergoAll_events hesitantRun).trans hf)
  obtain ⟨g', hg', hget, -⟩ := hlast _ _ _ c g hoptions hadd _ (countable_events hafter)
    (of_decide_eq_true hretains) (hlinked'.along_restores hafter "alice")
  exact ⟨s, f, c, g, g', hs, hf, hadd, (g.undergoAll_events eventfulRun).symm.trans hg', hget⟩

/-- A removal that fails at the controller, and whose undo the database refuses. -/
def strandedRemoval : List Incident :=
  [.block .peers .insert true, .event (.call (.arm .remove)), .event (.call (.remove "alice"))]

/-- A client is lost in a removal that fails, if the database refuses to take its record back: no
removal succeeded, and the client is not found. -/
theorem not_lasting_stranded :
    ∃ s c f g, startSample = .ok s ∧ s.add ⟨.ofNat 2⟩ "alice" {} = (.ok c, f) ∧
      f.Along (Retains "alice") strandedRemoval ∧ f.undergoAll strandedRemoval = .ok g ∧
      g.get "alice" = .error (.notFound .wireGuard) := by
  have hok : startSample.toOption.map (fun s =>
      ((s.add ⟨.ofNat 2⟩ "alice" {}).1.toOption.isSome,
        decide ((s.add ⟨.ofNat 2⟩ "alice" {}).2.Along (Retains "alice") strandedRemoval),
        ((s.add ⟨.ofNat 2⟩ "alice" {}).2.undergoAll strandedRemoval).toOption.map fun g =>
          g.get "alice")) =
      some (true, true, some (.error (.notFound .wireGuard))) := by
    decide +kernel
  obtain ⟨s, hs, hseen⟩ := exists_of_toOption_map hok
  obtain ⟨hadded, hrest⟩ := Prod.mk.inj hseen
  obtain ⟨hretains, hundergone⟩ := Prod.mk.inj hrest
  obtain ⟨c, f, hadd⟩ := exists_eq_ok_of_isSome hadded
  rw [hadd] at hretains hundergone
  obtain ⟨g, hg, hget⟩ := exists_of_toOption_map hundergone
  exact ⟨s, c, f, g, hs, hadd, of_decide_eq_true hretains, hg, hget⟩

end WireKeeper.Service
