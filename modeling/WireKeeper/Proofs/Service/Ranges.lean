import WireKeeper.Proofs.Service.Agreement
import WireKeeper.Proofs.Service.Allocation

/-! # Ranges of the peers at the controller

The interface routes an address to the peer that claims it, so no two peers may claim the same one.
An automatic address is new, but an explicit one is compared with that of the server only. So two
clients can be given the same address, and then their peers claim it both. There is no other way to
come to this.

* `DisjointRanges`: no two peers claim the same address;
* `Reuses`: an addition with an explicit address that a stored client has;
* `Spaced`: the invariant of runs without these;
* `disjointRanges_iff_not_reuses`: all along a run the ranges are disjoint exactly when no event of
  it reuses an address. -/

namespace WireKeeper

/-- A peer **claims** the addresses of its allowed nets. -/
def Config.ServerPeer.Claims (q : Config.ServerPeer) (a : Address) : Prop :=
  ∃ net ∈ q.allowedIPs, net.contains a = true

/-! ## Stored addresses -/

namespace Rows

variable {rows rows' : Rows}

/-- Different clients have different addresses. -/
def Distinct (rows : Rows) : Prop :=
  ∀ p p', rows.Holds p → rows.Holds p' → p.address.address = p'.address.address → p = p'

/-- Fewer clients may be stored, and their addresses are different still. -/
theorem Distinct.mono (h : rows.Distinct) (hsub : ∀ p, rows'.Holds p → rows.Holds p) :
    rows'.Distinct :=
  fun p p' hp hp' => h p p' (hsub p hp) (hsub p' hp')

/-- A client with a new address may be stored, in the place of one of its name or beside
the others. -/
theorem Distinct.insert (h : rows.Distinct) {p : PeerIdentity}
    (hnew : ∀ p', rows.Holds p' → p'.address.address ≠ p.address.address) :
    (rows.insert (Peers.key p.name) p.encode).Distinct := by
  intro q q' hq hq' haddress
  rcases of_holds_insert hq with rfl | hold
  · rcases of_holds_insert hq' with rfl | hold'
    · rfl
    · exact absurd haddress.symm (hnew q' hold')
  · rcases of_holds_insert hq' with rfl | hold'
    · exact absurd haddress (hnew q hold)
    · exact h q q' hold hold' haddress

end Rows

namespace Service

variable {s : Service}

/-! ## Disjoint ranges -/

/-- The ranges are **disjoint** if no two peers at the controller claim the same address. -/
def DisjointRanges (s : Service) : Prop :=
  s.controller.peers.Pairwise fun q q' => ∀ a, q.Claims a → ¬q'.Claims a

/-- The peer of a client claims the address of the client only. -/
theorem claims_projection {p : PeerIdentity} {a : Address} :
    (projection p).Claims a ↔ a = p.address.address := by
  constructor
  · rintro ⟨net, hnet, ha⟩
    cases List.mem_singleton.1 hnet
    exact Net.contains_host.1 ha
  · rintro rfl
    exact ⟨_, List.mem_singleton_self _, Net.contains_host.2 rfl⟩

/-- When the stored clients have different addresses, the ranges are disjoint. -/
theorem Linked.disjointRanges (h : s.Linked) (hdistinct : s.store.peerRows.Distinct) :
    s.DisjointRanges := by
  have hnames : s.controller.peers.Pairwise fun q q' => q.name ≠ q'.name :=
    List.pairwise_map.1 h.nodup_names
  refine hnames.imp_of_mem ?_
  intro q q' hq hq' hne a ha ha'
  obtain ⟨p, hp, rfl⟩ := (h.mem_peers q).1 hq
  obtain ⟨p', hp', rfl⟩ := (h.mem_peers q').1 hq'
  have haddress := (claims_projection.1 ha).symm.trans (claims_projection.1 ha')
  exact hne (congrArg PeerIdentity.name (hdistinct p p' hp hp' haddress))

/-! ## Reused addresses -/

/-- An event **reuses** an address if it adds a client with an explicit address which a stored
client has. -/
def Reuses (s : Service) : Event → Prop
  | .call (.add fresh name options) =>
    (∃ c, (s.add fresh name options).1 = .ok c) ∧
      ∃ net other p, options.address = some net ∧ s.store.view (Peers.get other) = .ok p ∧
        p.address.address = net.address
  | _ => False

/-- An explicit address is given as it is, if it is given. -/
theorem eq_of_chooseAddress {net a : Net} (h : s.chooseAddress (some net) = .ok a) : a = net := by
  rw [chooseAddress] at h
  split at h
  · cases h
  · exact (Except.ok.inj h).symm

/-- After an address was reused, two peers claim it, and the ranges are not disjoint. -/
theorem Linked.not_disjointRanges (h : s.Linked) {e : Event} (he : s.Reuses e) :
    ∃ s', s.step e = .ok s' ∧ ¬s'.DisjointRanges := by
  cases e with
  | restart fresh => exact he.elim
  | call c =>
    cases c with
    | remove name => exact he.elim
    | get name => exact he.elim
    | infos => exact he.elim
    | arm step => exact he.elim
    | add fresh name options =>
      obtain ⟨⟨c, hadd⟩, net, other, p, hoptions, hview, haddress⟩ := he
      refine ⟨_, rfl, fun hdisjoint => ?_⟩
      rw [after] at hdisjoint
      have houtcome := add_outcome h.sound h.free fresh name options
      generalize s.add fresh name options = r at houtcome hadd hdisjoint
      cases houtcome with
      | refused => cases hadd
      | undone => cases hadd
      | added a config hnew hchosen hloaded hlive =>
        rw [hoptions] at hchosen
        cases eq_of_chooseAddress hchosen
        have hp := (Store.of_view_get hview).2
        have hmem := (h.mem_peers (projection p)).2 ⟨p, hp, rfl⟩
        rw [Controller.peers_eq hloaded] at hmem
        -- the new peer is behind all others, that of the other client among them
        have hnot := (List.pairwise_append.1 hdisjoint).2.2 _ hmem _ (List.mem_singleton_self _)
        exact hnot net.address (claims_projection.2 haddress.symm) (claims_projection.2 rfl)

/-! ## The invariant -/

/-- The clients are **spaced** if the stored ones have different addresses, and the cursor is above
them all. -/
structure Spaced (s : Service) : Prop where
  linked : s.Linked
  above : ∃ seen, Allocation.Above s.settings.address s.cursor seen ∧ s.Recorded seen
  distinct : s.store.peerRows.Distinct

/-- A service is spaced once it was started over clients with different addresses. -/
theorem Linked.spaced {settings : ServiceSettings} {fresh : PrivateKey} {store : Store}
    {controller : Controller} (h : s.Linked)
    (hstart : start settings fresh store controller = .ok s) (hsound : store.committed.Sound)
    (hdistinct : store.peerRows.Distinct) : s.Spaced := by
  obtain ⟨i, peers, hstarted⟩ := of_start_eq_ok hstart
  refine ⟨h, ⟨_, hstarted.above, hstarted.recorded hsound⟩, ?_⟩
  rw [hstarted.peerRows_eq]
  exact hdistinct

/-- An address that does not come from reuse is no stored client's: an explicit one is compared, and
an automatic one is new. -/
theorem Spaced.ne_of_chooseAddress (h : s.Spaced) {fresh : PrivateKey} {name : String}
    {options : AddOptions} (hadd : ∃ c, (s.add fresh name options).1 = .ok c)
    (hnew : ¬s.Reuses (.call (.add fresh name options))) {a : Net}
    (hchosen : s.chooseAddress options.address = .ok a) {p : PeerIdentity}
    (hp : s.store.peerRows.Holds p) : p.address.address ≠ a.address := by
  cases hoptions : options.address with
  | none =>
    -- the cursor is above all stored addresses inside the subnet, and the new one is inside
    obtain ⟨seen, habove, hrecorded⟩ := h.above
    rw [hoptions] at hchosen
    exact Allocation.ne_of_next habove hchosen (hrecorded.mem p hp)
  | some net =>
    rw [hoptions] at hchosen
    rw [eq_of_chooseAddress hchosen]
    intro haddress
    have hview := (Store.view_get_eq_ok h.linked.sound h.linked.free h.linked.isOpen).2
      ⟨rfl, hp⟩
    exact hnew ⟨hadd, net, p.name, p, hoptions, hview, haddress⟩

/-- After a call that reuses no address, the stored clients have different addresses. -/
theorem Spaced.distinct_after (h : s.Spaced) {c : Call} (hnew : ¬s.Reuses (.call c)) :
    (s.after c).store.peerRows.Distinct := by
  cases c with
  | get name => exact h.distinct
  | infos => exact h.distinct
  | arm step => exact h.distinct
  | remove name =>
    exact h.distinct.mono fun p hp => (remove_outcome h.linked.sound h.linked.free name).of_holds hp
  | add fresh name options =>
    rw [after]
    have houtcome := add_outcome h.linked.sound h.linked.free fresh name options
    generalize hadd : s.add fresh name options = r at houtcome ⊢
    -- only an addition that is done stores an address
    cases houtcome with
    | refused => exact h.distinct
    | undone => exact h.distinct
    | added a config _ hchosen =>
      have hdone : ∃ c, (s.add fresh name options).1 = .ok c := ⟨_, congrArg Prod.fst hadd⟩
      rw [added, Store.peerRows_withPeers]
      exact h.distinct.insert fun p hp => h.ne_of_chooseAddress hdone hnew hchosen hp

/-- An event that reuses no address keeps the clients spaced. -/
theorem Spaced.step (h : s.Spaced) {e : Event} (he : e.Countable) (hnew : ¬s.Reuses e) :
    ∃ s', s.step e = .ok s' ∧ s'.Spaced := by
  obtain ⟨s', hstep, hlinked⟩ := h.linked.step he
  refine ⟨s', hstep, ?_⟩
  cases e with
  | restart fresh => exact hlinked.spaced hstep h.linked.sound h.distinct
  | call c =>
    cases hstep
    obtain ⟨seen, habove, hrecorded⟩ := h.above
    obtain ⟨hsettings, hafter⟩ := above_after habove c
    rw [← hsettings] at hafter
    exact ⟨hlinked, ⟨_, hafter, hrecorded.after c⟩, h.distinct_after hnew⟩

/-! ## Runs -/

/-- A run in which no event reuses an address keeps the clients spaced. The induction is on the run,
the last event first. -/
theorem Spaced.run (h : s.Spaced) {events : List Event} (hevents : ∀ e ∈ events, Event.Countable e)
    (hnew : ∀ before e s', before ++ [e] <+: events → s.run before = .ok s' → ¬s'.Reuses e) :
    ∃ s', s.run events = .ok s' ∧ s'.Spaced := by
  induction events generalizing s with
  | nil => exact ⟨s, rfl, h⟩
  | cons e es ih =>
    -- the first event stands behind no other, and the others behind it
    have he := hnew [] e s ⟨es, rfl⟩ rfl
    obtain ⟨s₁, hstep, h₁⟩ := h.step (hevents e List.mem_cons_self) he
    rw [Service.run, hstep]
    refine ih h₁ (fun e' he' => hevents e' (List.mem_cons_of_mem e he')) ?_
    intro before e' s' hbefore hrun
    refine hnew (e :: before) e' s' (List.cons_prefix_cons.2 ⟨rfl, hbefore⟩) ?_
    rw [Service.run, hstep]
    exact hrun

/-- Over an empty store a service starts, with no client to share an address. -/
theorem exists_start_spaced {settings : ServiceSettings} (hcountable : settings.Countable)
    (fresh : PrivateKey) (controller : Controller) :
    ∃ s, start settings fresh {} controller = .ok s ∧ s.Spaced := by
  obtain ⟨s, hs, hlinked⟩ : ∃ s, start settings fresh {} controller = .ok s ∧ Linked s := by
    refine exists_start_linked hcountable Database.sound_empty rfl rfl ?_ ?_ fresh controller
    · intro value h
      cases h
    · exact fun r hr => absurd hr List.not_mem_nil
  refine ⟨s, hs, hlinked.spaced hs Database.sound_empty fun p p' hp => ?_⟩
  obtain ⟨value, hget, -⟩ := hp
  cases hget

/-- From an empty store, the ranges of the peers are disjoint all along a run exactly when no event
of it adds a client with an explicit address that a stored client has. -/
theorem disjointRanges_iff_not_reuses (settings : ServiceSettings) (hcountable : settings.Countable)
    (fresh : PrivateKey) (controller : Controller) :
    ∃ s, start settings fresh {} controller = .ok s ∧
      ∀ events, (∀ e ∈ events, Event.Countable e) →
        ((∀ before, before <+: events → ∃ s', s.run before = .ok s' ∧ s'.DisjointRanges) ↔
          ∀ before e s', before ++ [e] <+: events → s.run before = .ok s' → ¬s'.Reuses e) := by
  obtain ⟨s, hs, hspaced⟩ := exists_start_spaced hcountable fresh controller
  refine ⟨s, hs, fun events hevents => ⟨?_, ?_⟩⟩
  · intro hdisjoint before e s' hbefore hrun hreuses
    have hcount : ∀ e' ∈ before, Event.Countable e' := fun e' he' =>
      hevents e' (hbefore.subset (List.mem_append_left [e] he'))
    -- the reuse is a step of the run, and after it two peers claim one address
    obtain ⟨s₁, hrun₁, h₁⟩ := hspaced.linked.run hcount
    cases hrun.symm.trans hrun₁
    obtain ⟨s₂, hstep, hnot⟩ := h₁.not_disjointRanges hreuses
    obtain ⟨s₃, hrun₃, h₃⟩ := hdisjoint (before ++ [e]) hbefore
    cases hstep.symm.trans ((run_concat hrun e).symm.trans hrun₃)
    exact hnot h₃
  · intro hnew before hbefore
    -- what does not happen in the run does not happen in its beginning
    obtain ⟨s', hrun, h'⟩ := hspaced.run (fun e he => hevents e (hbefore.subset he))
      fun before' e s' hbefore' => hnew before' e s' (hbefore'.trans hbefore)
    exact ⟨s', hrun, h'.linked.disjointRanges h'.distinct⟩

/-- Two clients get automatic addresses, the first is removed, and after a restart comes a third. -/
def automaticEvents : List Event :=
  [.call (.add ⟨.ofNat 2⟩ "alice" {}), .call (.add ⟨.ofNat 3⟩ "bob" {}), .call (.remove "alice"),
    .restart ⟨.ofNat 4⟩, .call (.add ⟨.ofNat 5⟩ "carol" {})]

/-- At the end, the peers of the two that are left have disjoint ranges. -/
theorem disjointRanges_automatic :
    ∃ s s', startSample = .ok s ∧ s.run automaticEvents = .ok s' ∧
      s'.controller.peers.map Config.ServerPeer.name = ["bob", "carol"] ∧ s'.DisjointRanges := by
  have hnames : (startSample >>= fun s => s.run automaticEvents).toOption.map
      (fun s => s.controller.peers.map Config.ServerPeer.name) = some ["bob", "carol"] := by
    decide +kernel
  -- none of the additions has an explicit address
  have hevents : ∀ e ∈ automaticEvents, Event.Countable e ∧ ∀ s : Service, ¬s.Reuses e := by
    have hadd : ∀ fresh name, Event.Countable (.call (.add fresh name {})) ∧
        ∀ s : Service, ¬s.Reuses (.call (.add fresh name {})) := fun fresh name =>
      ⟨⟨fun dns h => (nomatch h), by decide⟩, fun s ⟨_, _, _, _, h, _⟩ => (nomatch h)⟩
    intro e he
    simp only [automaticEvents, List.mem_cons, List.not_mem_nil, or_false] at he
    rcases he with rfl | rfl | rfl | rfl | rfl
    · exact hadd _ _
    · exact hadd _ _
    · exact ⟨trivial, fun _ => id⟩
    · exact ⟨trivial, fun _ => id⟩
    · exact hadd _ _
  obtain ⟨s, hs, h⟩ := disjointRanges_iff_not_reuses sampleSettings ⟨by decide, by decide⟩
    ⟨.ofNat 1⟩ ⟨"wg0.conf", "wg0", none, []⟩
  obtain ⟨s', hrun, hdisjoint⟩ := (h automaticEvents fun e he => (hevents e he).1).2
    (fun before e s' hbefore _ =>
      (hevents e (hbefore.subset (List.mem_append_right _ (List.mem_singleton_self e)))).2 s')
    automaticEvents List.prefix_rfl
  obtain ⟨s₁, hboth, hseen⟩ := exists_of_toOption_map hnames
  cases (bind_eq_ok.2 ⟨s, hs, hrun⟩).symm.trans hboth
  exact ⟨s, s', hs, hrun, hseen, hdisjoint⟩

/-- Two clients ask for the address `10.9.8.7`, one after the other. -/
def sharingEvents : List Event :=
  let options : AddOptions := { address := some (Net.host (.ofNat .v4 0x0A090807)) }
  [.call (.add ⟨.ofNat 2⟩ "alice" options), .call (.add ⟨.ofNat 3⟩ "bob" options)]

/-- Both get it, and the peers at the controller claim it both. -/
theorem not_disjointRanges_sharing :
    ∃ s s', startSample = .ok s ∧ s.run sharingEvents = .ok s' ∧
      s'.controller.peers.map Config.ServerPeer.name = ["alice", "bob"] ∧ ¬s'.DisjointRanges := by
  have hnets : (startSample >>= fun s => s.run sharingEvents).toOption.map
      (fun s => s.controller.peers.map fun q => (q.name, q.allowedIPs)) =
        some [("alice", [Net.host (.ofNat .v4 0x0A090807)]),
          ("bob", [Net.host (.ofNat .v4 0x0A090807)])] := by
    decide +kernel
  obtain ⟨s', hboth, hseen⟩ := exists_of_toOption_map hnets
  obtain ⟨s, hs, hrun⟩ := bind_eq_ok.1 hboth
  obtain ⟨q, rest, hpeers, hq, hrest⟩ := List.map_eq_cons_iff.1 hseen
  obtain ⟨q', rest', rfl, hq', hrest'⟩ := List.map_eq_cons_iff.1 hrest
  cases List.map_eq_nil_iff.1 hrest'
  obtain ⟨hname, hnet⟩ := Prod.mk.inj hq
  obtain ⟨hname', hnet'⟩ := Prod.mk.inj hq'
  refine ⟨s, s', hs, hrun, ?_, fun hdisjoint => ?_⟩
  · rw [hpeers, List.map_cons, List.map_cons, hname, hname', List.map_nil]
  -- the address itself is in both ranges
  · rw [DisjointRanges, hpeers] at hdisjoint
    have hnot := List.rel_of_pairwise_cons hdisjoint List.mem_cons_self
    have hself := Net.contains_host.2 (rfl : Address.ofNat .v4 0x0A090807 = _)
    exact hnot _ ⟨_, hnet ▸ List.mem_singleton_self _, hself⟩
      ⟨_, hnet' ▸ List.mem_singleton_self _, hself⟩

end Service

end WireKeeper
