import WireKeeper.Proofs.Service.Runs
import WireKeeper.Proofs.Store.Refusals

/-! # Listing the clients

A listing joins two sources that know nothing of each other: the rows of the store, and a text that
an outside tool prints. The rows alone decide whether there is a listing, which clients are in it
and in which order. The tool decides what traffic is known, and nothing else.

* `Store.Viewable`: a store whose peers can be looked at;
* `Service.Reports`: the traffic of a key, as the tool tells it;
* `Service.listing_exact`: what a listing is, on any store and with any tool. -/

namespace WireKeeper

namespace Store

variable {s : Store} {p : PeerIdentity}

/-- The peers of a store can be looked at: no update is inside the section, the store is open, and
the bucket is there. -/
structure Viewable (s : Store) : Prop where
  idle : s.updating = false
  isOpen : s.closed = false
  table : ∃ t, s.committed.table .peers = some t

/-- All peers are read where they can be looked at, if every row is, and in the order of
the rows. -/
theorem view_all_eq_ok {ps : List PeerIdentity} :
    s.view Peers.all = .ok ps ↔ s.Viewable ∧ s.peerRows.toList.mapM Peers.ofRow = .ok ps := by
  rw [view_eq_ok]
  constructor
  · rintro ⟨hidle, hopen, hrun⟩
    obtain ⟨t, ht⟩ := Peers.exists_table_of_run_all (Prod.ext hrun rfl)
    rw [Peers.run_all_of_table ht] at hrun
    exact ⟨⟨hidle, hopen, t, ht⟩, hrun⟩
  · rintro ⟨⟨hidle, hopen, t, ht⟩, hps⟩
    rw [Peers.run_all_of_table ht]
    exact ⟨hidle, hopen, hps⟩

/-- There are all peers if and only if they can be looked at and every row is read. -/
theorem exists_view_all :
    (∃ ps, s.view Peers.all = .ok ps) ↔ s.Viewable ∧ s.peerRows.Readable := by
  simp only [view_all_eq_ok, exists_and_left]
  refine and_congr_right fun _ => ⟨?_, Rows.Readable.exists_all⟩
  rintro ⟨ps, hps⟩
  exact Rows.readable_of_all hps

/-- A peer that is held is read under its name. -/
theorem view_get_of_holds (hidle : s.updating = false) (hopen : s.closed = false)
    (hp : s.peerRows.Holds p) : s.view (Peers.get p.name) = .ok p := by
  obtain ⟨value, hget, hdecode⟩ := hp
  refine view_eq_ok.2 ⟨hidle, hopen, ?_⟩
  rw [Peers.run_get_of_row hget]
  exact hdecode

end Store

namespace Service

variable {s : Service} {σ : Type} {tools : Toolbox σ} {host : Host σ} {p : PeerIdentity}
  {key : PublicKey} {stats : PeerStats} {ps : List PeerIdentity} {infos : List ClientInfo}

/-- The tool **reports** the traffic of a key: it gives a dump, which is read and has the key. -/
def Reports (s : Service) (tools : Toolbox σ) (host : Host σ) (key : PublicKey)
    (stats : PeerStats) : Prop :=
  ∃ dump m, (tools (.statusDump s.controller.interface) host).1 = .ok dump ∧
    Dump.parse dump = .ok m ∧ m.get? key = some stats

/-- What is known of the traffic when the tool is asked; nothing, if it fails or its dump is not
read. -/
def traffic (s : Service) (tools : Toolbox σ) (host : Host σ) : StatsMap :=
  match (s.controller.stats tools host).1 with
  | .ok m => m
  | .error _ => []

/-- A key has traffic if and only if the tool reports it, and none in each of the ways that it does
not. -/
theorem get?_traffic_eq_some :
    (s.traffic tools host).get? key = some stats ↔ s.Reports tools host key stats := by
  rw [traffic, Controller.stats, Reports]
  generalize tools (.statusDump s.controller.interface) host = r
  obtain ⟨dump | dump, host'⟩ := r
  · -- the tool failed
    exact ⟨nofun, fun ⟨_, _, h, _⟩ => nomatch h⟩
  -- the dump is no dump, or is read and shows some keys
  · cases hparse : Dump.parse dump with
    | error e =>
      refine ⟨by simp only [hparse]; exact nofun, ?_⟩
      rintro ⟨_, m, ⟨⟩, hm, -⟩
      cases hparse.symm.trans hm
    | ok m =>
      simp only [hparse]
      refine ⟨fun h => ⟨dump, m, rfl, hparse, h⟩, ?_⟩
      rintro ⟨_, m', ⟨⟩, hm, h⟩
      cases hparse.symm.trans hm
      exact h

/-- A listing is made of all peers that the store gives, each with what is known of its traffic. -/
theorem infos_fst :
    (s.infos tools host).1 =
      match s.store.view Peers.all with
      | .error e => .error (.ofStore e)
      | .ok ps =>
        .ok (ps.map fun p => ⟨s.clientConfig p, (s.traffic tools host).get? p.publicKey⟩) := by
  rw [infos]
  cases s.store.view Peers.all <;> rfl

/-- A listing that succeeds comes from all peers of the store, one entry for each. -/
theorem infos_eq_ok :
    (s.infos tools host).1 = .ok infos ↔ ∃ ps, s.store.view Peers.all = .ok ps ∧
      infos = ps.map fun p => ⟨s.clientConfig p, (s.traffic tools host).get? p.publicKey⟩ := by
  rw [infos_fst]
  constructor
  · intro h
    split at h
    · cases h
    · next ps hps => exact ⟨ps, hps, (Except.ok.inj h).symm⟩
  · rintro ⟨ps, hps, rfl⟩
    rw [hps]

/-- The configurations of a listing, without what is known from the tool, are those of all peers. -/
theorem configs_infos :
    (s.infos tools host).1.map (List.map ClientInfo.config) =
      match s.store.view Peers.all with
      | .error e => .error (.ofStore e)
      | .ok ps => .ok (ps.map s.clientConfig) := by
  rw [infos_fst]
  cases s.store.view Peers.all with
  | error e => rfl
  | ok ps => exact congrArg Except.ok List.map_map

/-- A client that is held is got with its configuration. -/
theorem get_of_holds (hidle : s.store.updating = false) (hopen : s.store.closed = false)
    (hp : s.store.peerRows.Holds p) : s.get p.name = .ok (s.clientConfig p) := by
  rw [get, Store.view_get_of_holds hidle hopen hp]

/-- **A listing depends on the tool for the traffic only.** There is one if and only if the peers
can be looked at and every row is read, whatever the tool does. It has one client for each row, in
the order of the bytes of their names, each with the configuration that it is got with, and with
traffic if and only if the tool tells that of its own key. Another tool, on another host, makes the
same configurations or the same error of the same service. -/
theorem listing_exact (s : Service) (tools : Toolbox σ) (host : Host σ) :
    ((∃ infos, (s.infos tools host).1 = .ok infos) ↔
      s.store.Viewable ∧ s.store.peerRows.Readable) ∧
    (∀ infos, (s.infos tools host).1 = .ok infos →
      (∃ names : List String, infos.map (·.config.interface.name) = names.map some ∧
        names.map Peers.key = s.store.peerRows.keys ∧
        (names.map Peers.key).Pairwise (· < ·)) ∧
      ∀ info ∈ infos, ∃ p, s.store.peerRows.Holds p ∧ info.config = s.clientConfig p ∧
        s.get p.name = .ok info.config ∧
        ∀ stats, info.stats = some stats ↔ s.Reports tools host p.publicKey stats) ∧
    ∀ (τ : Type) (tools' : Toolbox τ) (host' : Host τ),
      (s.infos tools' host').1.map (List.map ClientInfo.config) =
        (s.infos tools host).1.map (List.map ClientInfo.config) := by
  refine ⟨?_, fun infos h => ?_, fun τ tools' host' => ?_⟩
  · rw [← Store.exists_view_all]
    constructor
    · rintro ⟨infos, h⟩
      obtain ⟨ps, hps, -⟩ := infos_eq_ok.1 h
      exact ⟨ps, hps⟩
    · rintro ⟨ps, hps⟩
      exact ⟨_, infos_eq_ok.2 ⟨ps, hps, rfl⟩⟩
  · obtain ⟨ps, hview, rfl⟩ := infos_eq_ok.1 h
    obtain ⟨hviewable, hps⟩ := Store.view_all_eq_ok.1 hview
    have hkeys : (ps.map PeerIdentity.name).map Peers.key = s.store.peerRows.keys := by
      rw [List.map_map]
      exact Rows.map_key_of_all hps
    refine ⟨⟨ps.map PeerIdentity.name, ?_, hkeys, ?_⟩, fun info hinfo => ?_⟩
    · rw [List.map_map, List.map_map]
      rfl
    · rw [hkeys]
      exact List.pairwise_map.2 s.store.peerRows.sorted
    · obtain ⟨p, hp, rfl⟩ := List.mem_map.1 hinfo
      have hholds := (Rows.mem_iff_holds hps).1 hp
      exact ⟨p, hholds, rfl, get_of_holds hviewable.idle hviewable.isOpen hholds,
        fun stats => get?_traffic_eq_some⟩
  · rw [configs_infos, configs_infos]

/-- A client that is known by its name and its key. -/
def pairedPeer (name : String) (n : Nat) : PeerIdentity :=
  ⟨name, sampleSettings.address.withValue (0x0A090801 + n), ⟨.ofNat n⟩, ⟨.ofNat n⟩, [], [], none⟩

/-- The rows of two clients, the later of them written first. -/
def pairedRows : Rows :=
  let stored (rows : Rows) (p : PeerIdentity) := rows.insert (Peers.key p.name) p.encode
  stored (stored ∅ (pairedPeer "bob" 2)) (pairedPeer "alice" 1)

/-- A service with these rows, and nothing at its controller. -/
def paired : Service :=
  ⟨sampleSettings, ⟨.ofNat 1⟩, sampleSettings.address, ({} : Store).withPeers pairedRows,
    ⟨"wg0.conf", "wg0", none, []⟩⟩

/-- A host whose tool prints a text. -/
def printing (dump : String) : Host Rehearsal := ⟨{}, { dump := dump }⟩

/-- A dump with the key of one of them, and of no other peer. -/
def partialDump : String := "wg0\nAQAAAAAAAAAAAAAAAAAAAAAAAAAAAAAAAAAAAAAAAAA= - - - 0 3 4 off"

/-- Both clients are listed in the order of their names, one of them with what the tool said of her
key; if the tool prints garbage, both are listed with the same configurations. -/
theorem listing_exact_paired :
    ∃ infos, (paired.infos Rehearsal.toolbox (printing partialDump)).1 = .ok infos ∧
      infos.map (·.config.interface.name) = [some "alice", some "bob"] ∧
      (∀ info ∈ infos, info.config.interface.name = some "alice" →
        info.stats = some ⟨3, 4, none⟩) ∧
      (paired.infos Rehearsal.toolbox (printing "wg0\ngarbage")).1.map
        (List.map ClientInfo.config) = .ok (infos.map ClientInfo.config) := by
  have hrows : paired.store.peerRows = pairedRows := Store.peerRows_withPeers pairedRows
  have hcount : ∀ name n, (pairedPeer name n).Countable := fun _ _ =>
    ⟨twoPow_pos 32, twoPow_pos 32⟩
  have hempty : (∅ : Rows).Readable := fun r hr => absurd hr List.not_mem_nil
  have hreadable : paired.store.peerRows.Readable :=
    hrows ▸ (hempty.insert (hcount "bob" 2)).insert (hcount "alice" 1)
  obtain ⟨hsucceeds, hlists, hsame⟩ :=
    listing_exact paired Rehearsal.toolbox (printing partialDump)
  obtain ⟨infos, hinfos⟩ := hsucceeds.2 ⟨⟨rfl, rfl, _, rfl⟩, hreadable⟩
  obtain ⟨⟨names, hnames, hkeys, -⟩, hentries⟩ := hlists infos hinfos
  -- the keys of the rows are evaluated, and names are decided by them
  obtain rfl : names = ["alice", "bob"] := by
    have hwritten : pairedRows.keys = ["alice", "bob"].map Peers.key := by decide +kernel
    rw [hrows, hwritten] at hkeys
    exact List.map_injective_iff.2 (fun _ _ => Peers.key_inj.1) hkeys
  refine ⟨infos, hinfos, hnames, fun info hinfo hname => ?_, ?_⟩
  · obtain ⟨p, hp, hconfig, -, hstats⟩ := hentries info hinfo
    have halice : paired.store.peerRows.Holds (pairedPeer "alice" 1) :=
      hrows ▸ (Rows.holds_insert (hcount "alice" 1)).2 (.inl rfl)
    obtain rfl : p = pairedPeer "alice" 1 := by
      rw [hconfig] at hname
      exact hp.eq halice (Option.some.inj hname)
    have hparse : (Dump.parse partialDump).toOption.map
        (·.get? (pairedPeer "alice" 1).publicKey) = some (some ⟨3, 4, none⟩) := by
      decide +kernel
    obtain ⟨m, hm, hget⟩ := exists_of_toOption_map hparse
    exact (hstats _).2 ⟨partialDump, m, rfl, hm, hget⟩
  · rw [hsame, hinfos]
    rfl

end Service

end WireKeeper
