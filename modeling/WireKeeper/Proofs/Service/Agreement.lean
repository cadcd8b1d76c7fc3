import WireKeeper.Proofs.Service.Runs
import WireKeeper.Proofs.Service.Start
import WireKeeper.Proofs.Service.Transitions

/-! # The controller agrees with the store

The peers at the controller are the projections of the stored clients, after every call and every
restart, whichever of the calls fail.

A call changes the store and the controller one after the other, and undoes the first change when
the second fails. So the invariant is about both: the store is free and its rows are read, and the
controller has exactly one peer for each of them.

* `Agrees`: what is seen of this from outside;
* `Linked`: the invariant, with one lemma for each operation;
* `agrees_run`: it holds along every run. -/

namespace WireKeeper

namespace Service

/-! ## The invariant -/

/-- What is seen of the agreement from outside: the names at the controller are different and are
those of the stored clients, and each peer has the key of its client and, as its only net, the
single-host net of the client's address. -/
structure Agrees (s : Service) : Prop where
  nodup_names : (s.controller.peers.map Config.ServerPeer.name).Nodup
  mem_names_iff : ∀ name, name ∈ s.controller.peers.map Config.ServerPeer.name ↔
    s.store.view (Peers.contains name) = .ok true
  entry : ∀ q ∈ s.controller.peers, ∃ p, s.store.view (Peers.get q.name) = .ok p ∧
    q.publicKey = p.publicKey ∧ q.allowedIPs = [Net.host p.address.address]

/-- The service is **linked**: its store is free and read, and the controller has the projections of
what it holds. Every call and every restart keeps this. -/
structure Linked (s : Service) : Prop where
  countable : s.settings.Countable
  sound : s.store.committed.Sound
  free : s.store.free = true
  isOpen : s.store.closed = false
  identified : Identified s.store.committed
  readable : s.store.peerRows.Readable
  nodup_names : (s.controller.peers.map Config.ServerPeer.name).Nodup
  mem_peers : ∀ q, q ∈ s.controller.peers ↔ ∃ p, s.store.peerRows.Holds p ∧ q = projection p

variable {s : Service}

/-- The invariant shows from outside as agreement. -/
theorem Linked.agrees (h : s.Linked) : s.Agrees where
  nodup_names := h.nodup_names
  mem_names_iff name := by
    rw [Store.view_contains_eq_ok h.sound h.free h.isOpen, List.mem_map]
    constructor
    · rintro ⟨q, hq, rfl⟩
      obtain ⟨p, ⟨value, hget, -⟩, rfl⟩ := (h.mem_peers q).1 hq
      show (s.store.peerRows.get? (Peers.key p.name)).isSome = true
      rw [hget]
      rfl
    · intro hcontains
      obtain ⟨value, hget⟩ := Option.isSome_iff_exists.1 hcontains
      obtain ⟨p, hname, hp⟩ := h.readable.holds hget
      exact ⟨projection p, (h.mem_peers _).2 ⟨p, hp, rfl⟩, hname⟩
  entry q hq := by
    obtain ⟨p, hp, rfl⟩ := (h.mem_peers q).1 hq
    exact ⟨p, (Store.view_get_eq_ok h.sound h.free h.isOpen).2 ⟨rfl, hp⟩, rfl, rfl⟩

/-- The arms of the controller do not matter: one with the same configuration is linked as well. -/
theorem Linked.controller (h : s.Linked) {c : Controller} (hc : c.config = s.controller.config) :
    Linked { s with controller := c } where
  countable := h.countable
  sound := h.sound
  free := h.free
  isOpen := h.isOpen
  identified := h.identified
  readable := h.readable
  nodup_names := by
    rw [show c.peers = s.controller.peers from Controller.peers_congr hc]
    exact h.nodup_names
  mem_peers q := by
    rw [show c.peers = s.controller.peers from Controller.peers_congr hc]
    exact h.mem_peers q

/-- New rows of peers, with the peers at the controller that project them, and with any cursor. -/
theorem Linked.withPeers (h : s.Linked) {rows : Rows} {c : Controller} {cursor : Net}
    (hreadable : rows.Readable) (hnodup : (c.peers.map Config.ServerPeer.name).Nodup)
    (hmem : ∀ q, q ∈ c.peers ↔ ∃ p, rows.Holds p ∧ q = projection p) :
    Linked { s with store := s.store.withPeers rows, controller := c, cursor := cursor } where
  countable := h.countable
  sound := h.sound.withRows .peers rows
  free := h.free
  isOpen := h.isOpen
  identified := by
    intro value hvalue
    refine h.identified value ?_
    rw [← hvalue, Store.withPeers, Store.committed_withCommitted, Database.rows_withRows,
      if_neg (by decide)]
  readable := by rwa [Store.peerRows_withPeers]
  nodup_names := hnodup
  mem_peers q := by
    rw [Store.peerRows_withPeers]
    exact hmem q

/-! ## The operations -/

/-- A service that was started is linked, and on such a store it does start. -/
theorem exists_start_linked {settings : ServiceSettings} {store : Store}
    (hcountable : settings.Countable) (hsound : store.committed.Sound) (hfree : store.free = true)
    (hopen : store.closed = false) (hidentified : Identified store.committed)
    (hreadable : store.peerRows.Readable) (fresh : PrivateKey) (controller : Controller) :
    ∃ s, start settings fresh store controller = .ok s ∧ Linked s := by
  obtain ⟨s, hs, hi⟩ :=
    exists_start hsound hfree hopen hidentified hreadable settings fresh controller
  obtain ⟨i, peers, hstarted⟩ := of_start_eq_ok hs
  -- the controller has the projections of the peers that were read, which are those of the rows
  have hpeers : s.controller.peers = peers.map projection := by rw [hstarted.controller_eq]; rfl
  refine ⟨s, hs, ?_, hstarted.sound hsound, hstarted.free, hstarted.isOpen, hi, ?_, ?_, ?_⟩
  · rw [hstarted.settings_eq]
    exact hcountable
  · rw [hstarted.peerRows_eq]
    exact hreadable
  · rw [hpeers, List.map_map]
    exact Rows.nodup_names hstarted.read
  · intro q
    rw [hpeers, hstarted.peerRows_eq, List.mem_map]
    constructor
    · rintro ⟨p, hp, rfl⟩
      exact ⟨p, (Rows.mem_iff_holds hstarted.read).1 hp, rfl⟩
    · rintro ⟨p, hp, rfl⟩
      exact ⟨p, (Rows.mem_iff_holds hstarted.read).2 hp, rfl⟩

/-- Adding a client keeps the link, whether it is added, refused or undone. -/
theorem Linked.add (h : s.Linked) {options : AddOptions} (hoptions : options.Countable)
    (fresh : PrivateKey) (name : String) : Linked (s.add fresh name options).2 := by
  have houtcome := add_outcome h.sound h.free fresh name options
  generalize s.add fresh name options = r at houtcome ⊢
  cases houtcome with
  | refused => exact h
  | undone _ c hc => exact h.controller hc
  | added a config hnew hchosen hloaded hlive =>
    have hcount := countable_newPeer h.countable hoptions fresh name a
    generalize hp : s.newPeer fresh name a options = p at hcount
    have hname : p.name = name := by rw [← hp]; rfl
    have hpeers := Controller.peers_eq hloaded
    -- one row more, and one peer at the end of the configuration
    refine h.withPeers (h.readable.insert hcount) ?_ fun q => ?_
    · exact Config.Server.nodup_names_concat (hpeers ▸ h.nodup_names)
        (Config.Server.find?_eq_none_iff.1 (show config.find? p.name = none from hname ▸ hlive))
    · show q ∈ config.peers ++ [projection p] ↔ _
      rw [List.mem_append, List.mem_singleton, ← hpeers, h.mem_peers]
      constructor
      · rintro (⟨p', hp', rfl⟩ | rfl)
        · exact ⟨p', hp'.insert_new hcount (hname.symm ▸ hnew), rfl⟩
        · exact ⟨p, (Rows.holds_insert hcount).2 (.inl rfl), rfl⟩
      · rintro ⟨p', hp', rfl⟩
        rcases (Rows.holds_insert hcount).1 hp' with rfl | ⟨-, hp'⟩
        · exact .inr rfl
        · exact .inl ⟨p', hp', rfl⟩

/-- Removing a client keeps the link, whether it is removed, missing or put back. -/
theorem Linked.remove (h : s.Linked) (name : String) : Linked (s.remove name).2 := by
  have houtcome := remove_outcome h.sound h.free name
  generalize s.remove name = r at houtcome ⊢
  cases houtcome with
  | refused => exact h
  | undone _ c p value hname hget hp hc =>
    obtain ⟨-, hholds⟩ := Rows.holds_of_decode hget hp
    subst hname
    refine (h.controller hc).withPeers (h.readable.insert hholds.countable)
      (h.controller hc).nodup_names fun q => ?_
    rw [(h.controller hc).mem_peers]
    exact exists_congr fun p' => and_congr_left' (Rows.holds_insert_of_holds hholds).symm
  | removed p value config hname hget hp hloaded hlive =>
    have hpeers := Controller.peers_eq hloaded
    have hnodup := h.nodup_names
    rw [hpeers] at hnodup
    -- one row less, and the peers without the one of the name
    refine h.withPeers (h.readable.erase _) ?_ fun q => ?_
    · exact (List.eraseP_sublist.map _).nodup hnodup
    · show q ∈ config.peers.eraseP _ ↔ _
      rw [mem_eraseP_of_nodup hnodup, ← hpeers, h.mem_peers]
      constructor
      · rintro ⟨⟨p', hp', rfl⟩, hne⟩
        exact ⟨p', Rows.holds_erase.2 ⟨hne, hp'⟩, rfl⟩
      · rintro ⟨p', hp', rfl⟩
        obtain ⟨hne, hp'⟩ := Rows.holds_erase.1 hp'
        exact ⟨⟨p', hp', rfl⟩, hne⟩

/-- Every event keeps the link, and a restart does not fail. -/
theorem Linked.step (h : s.Linked) {e : Event} (he : e.Countable) :
    ∃ s', s.step e = .ok s' ∧ Linked s' := by
  cases e with
  | restart fresh =>
    exact exists_start_linked h.countable h.sound h.free h.isOpen h.identified h.readable fresh
      s.controller
  | call c =>
    refine ⟨s.after c, rfl, ?_⟩
    cases c with
    | add fresh name options => exact h.add he fresh name
    | remove name => exact h.remove name
    | get name => exact h
    | infos => exact h
    | arm step => exact h.controller rfl

/-! ## Runs -/

/-- Every run keeps the link, and does not fail. It is the step lemma along the run. -/
theorem Linked.run (h : s.Linked) {events : List Event}
    (hevents : ∀ e ∈ events, Event.Countable e) : ∃ s', s.run events = .ok s' ∧ Linked s' :=
  run_invariant (fun _ _ hs he => Linked.step hs he) h hevents

/-- A service on any free store whose rows are read starts, whatever its controller held, and after
every run the controller agrees with the store. -/
theorem agrees_run (settings : ServiceSettings) (store : Store) (hcountable : settings.Countable)
    (hsound : store.committed.Sound) (hfree : store.free = true) (hopen : store.closed = false)
    (hidentified : Identified store.committed) (hreadable : store.peerRows.Readable)
    (fresh : PrivateKey) (controller : Controller) :
    ∃ s, start settings fresh store controller = .ok s ∧
      ∀ events, (∀ e ∈ events, Event.Countable e) → ∃ s', s.run events = .ok s' ∧ s'.Agrees := by
  obtain ⟨s, hs, hlinked⟩ := exists_start_linked hcountable hsound hfree hopen hidentified hreadable
    fresh controller
  refine ⟨s, hs, fun events hevents => ?_⟩
  obtain ⟨s', hrun, hs'⟩ := hlinked.run hevents
  exact ⟨s', hrun, hs'.agrees⟩

/-- An addition that is undone, two others, a removal that is undone, and a restart. -/
def falteringEvents : List Event :=
  [.call (.arm .apply), .call (.add ⟨.ofNat 2⟩ "alice" {}), .call (.add ⟨.ofNat 3⟩ "alice" {}),
    .call (.add ⟨.ofNat 4⟩ "bob" {}), .call (.arm .remove), .call (.remove "alice"),
    .restart ⟨.ofNat 5⟩]

/-- After these, the controller agrees with the store. -/
theorem agrees_run_faltering :
    ∃ s s', startSample = .ok s ∧ s.run falteringEvents = .ok s' ∧ s'.Agrees := by
  have hidentified : Identified Database.empty := by
    intro value h
    cases h
  have hreadable : (Database.empty.rows .peers).Readable := fun r hr => absurd hr List.not_mem_nil
  have hevents : ∀ e ∈ falteringEvents, Event.Countable e := by
    have hoptions : AddOptions.Countable {} := ⟨fun dns h => (nomatch h), by decide⟩
    intro e he
    simp only [falteringEvents, List.mem_cons, List.not_mem_nil, or_false] at he
    -- the additions ask for nothing, and all other events have nothing that could be too long
    rcases he with rfl | rfl | rfl | rfl | rfl | rfl | rfl
    · trivial
    · exact hoptions
    · exact hoptions
    · exact hoptions
    · trivial
    · trivial
    · trivial
  obtain ⟨s, hs, h⟩ := agrees_run sampleSettings {} ⟨by decide, by decide⟩ Database.sound_empty rfl
    rfl hidentified hreadable ⟨.ofNat 1⟩ ⟨"wg0.conf", "wg0", none, []⟩
  obtain ⟨s', hrun, hagrees⟩ := h _ hevents
  exact ⟨s, s', hs, hrun, hagrees⟩

end Service

end WireKeeper
