import WireKeeper.Proofs.Record.Faults
import WireKeeper.Proofs.Service.Agreement
import WireKeeper.Proofs.Service.Cursor
import WireKeeper.Proofs.Service.Refusals

/-! # Adding and removing as relations

What adding and removing a client do is said once more without saying how: each answer with the one
condition under which it is given, in the order in which the conditions count, and what becomes of
every row, of the peers at the controller, of its arms and of the cursor. Nothing is assumed of the
store and the controller but that both can be used, so that they may disagree.

* `Service.Poised`: a service that can be called, which every start and every call makes;
* `Service.Adds`, `Service.Removes`: the relations;
* `Service.add_remove_exact`: the two calls are these relations. -/

namespace WireKeeper

/-! ## Fixed bits -/

/-- A private key with the fixed bits of a scalar: the lowest byte is a multiple of eight, and of
the highest two bits of the last byte only the lower one is set. -/
structure PrivateKey.Clamped (key : PrivateKey) : Prop where
  low : ∃ b, key.bytes[0]? = some b ∧ b.toNat % 8 = 0
  high : ∃ b, key.bytes[31]? = some b ∧ b.toNat / 64 = 1

/-- A new private key has the fixed bits, whatever it was drawn from. -/
theorem PrivateKey.clamped_generate (random : KeyBytes) : (generate random).Clamped := by
  have hlow : ∀ n < 256, (n &&& 248) % 8 = 0 := by decide +kernel
  have hhigh : ∀ n < 256, ((n &&& 127) ||| 64) / 64 = 1 := by decide +kernel
  have hbytes : (generate random).bytes =
      (random.bytes.modify 0 (· &&& 248)).modify 31 fun b => (b &&& 127) ||| 64 := rfl
  have hlength := random.length_eq
  constructor
  · refine ⟨random.bytes[0] &&& 248, ?_, ?_⟩
    · rw [hbytes]
      simp [hlength]
    · rw [UInt8.toNat_and]
      exact hlow _ random.bytes[0].toNat_lt
  · refine ⟨(random.bytes[31] &&& 127) ||| 64, ?_, ?_⟩
    · rw [hbytes]
      simp [hlength]
    · rw [UInt8.toNat_or, UInt8.toNat_and]
      exact hhigh _ random.bytes[31].toNat_lt

/-! ## One row -/

/-- Sound databases with the same rows are the same. -/
theorem Database.Sound.ext_get? {db db' : Database} (h : db.Sound) (h' : db'.Sound)
    (hget : ∀ b key, (db'.rows b).get? key = (db.rows b).get? key) : db' = db := by
  have htable : ∀ b, db'.table b = db.table b := fun b => by
    rw [h.table, h'.table, Rows.ext_get? (hget b)]
  cases db
  cases db'
  rw [mk.injEq]
  exact ⟨htable .credentials, htable .peers, htable .server⟩

namespace Store

variable {s s' : Store} {key value : Bytes}

/-- A store **sets** a row of the peers: one, or none, is under a key afterwards. Every other row of
every bucket is as it was, and so is everything else about the store. -/
structure Sets (s : Store) (key : Bytes) (value : Option Bytes) (s' : Store) : Prop where
  row : (s'.committed.rows .peers).get? key = value
  others : ∀ b k, b ≠ .peers ∨ k ≠ key →
    (s'.committed.rows b).get? k = (s.committed.rows b).get? k
  sound : s'.committed.Sound
  frame : s' = s.withCommitted s'.committed

/-- Other rows of the peers set a row if they differ in that one at most. -/
theorem sets_withPeers (hsound : s.committed.Sound) {rows : Rows} {value : Option Bytes}
    (hrow : rows.get? key = value) (hothers : ∀ k, k ≠ key → rows.get? k = s.peerRows.get? k) :
    s.Sets key value (s.withPeers rows) where
  row := by
    rw [withPeers, committed_withCommitted, Database.rows_withRows, if_pos rfl]
    exact hrow
  others b k hne := by
    rw [withPeers, committed_withCommitted, Database.rows_withRows]
    by_cases hb : b = .peers
    · subst hb
      rw [if_pos rfl]
      exact hothers k (hne.resolve_left fun h => h rfl)
    · rw [if_neg hb]
  sound := hsound.withRows .peers rows
  frame := rfl

/-- Writing a row sets it. -/
theorem sets_insert (hsound : s.committed.Sound) (key value : Bytes) :
    s.Sets key (some value) (s.withPeers (s.peerRows.insert key value)) :=
  sets_withPeers hsound (Rows.get?_insert_self _ _ _) fun k hk => by
    rw [Rows.get?_insert, if_neg hk]

/-- Removing a row sets it to none. -/
theorem sets_erase (hsound : s.committed.Sound) (key : Bytes) :
    s.Sets key none (s.withPeers (s.peerRows.erase key)) :=
  sets_withPeers hsound (Rows.get?_erase_self _ _) fun k hk => by
    rw [Rows.get?_erase, if_neg hk]

/-- There is one way to set a row: a store is decided by its rows and by what it was before. -/
theorem Sets.eq {value : Option Bytes} {s'' : Store} (h : s.Sets key value s')
    (h' : s.Sets key value s'') : s'' = s' := by
  have hcommitted : s''.committed = s'.committed := by
    refine h.sound.ext_get? h'.sound fun b k => ?_
    by_cases hk : b = .peers ∧ k = key
    · obtain ⟨rfl, rfl⟩ := hk
      exact h'.row.trans h.row.symm
    · have hne : b ≠ .peers ∨ k ≠ key := not_and_or.1 hk
      exact (h'.others b k hne).trans (h.others b k hne).symm
  rw [h'.frame, hcommitted, ← h.frame]

end Store

/-- An error about bytes is nothing that a caller can mend, and so an internal one. -/
theorem ServiceError.ofStore_of_ofBytes {e : StoreError} (h : e.OfBytes) :
    ofStore e = .internal (.store e) := by
  obtain h | rfl := h
  · cases e <;> first | rfl | exact h.elim
  · rfl

namespace Allocation

variable {server cursor : Net}

/-- The **successor** of a cursor: the address whose number is the next one, and which is inside the
subnet but not the last one there. -/
structure Successor (server cursor : Net) (a : Address) : Prop where
  value : a.value = cursor.address.value + 1
  inside : server.network.contains a = true
  ne_last : a ≠ server.network.last

/-- A cursor inside the subnet has a successor if and only if there is room for one below the last
address, and then it has one only. -/
theorem successor_iff (hinside : server.network.contains cursor.address = true) {a : Address} :
    Successor server cursor a ↔ cursor.address.value + 1 < server.network.last.value ∧
      a = (server.withValue (cursor.address.value + 1)).address := by
  obtain ⟨-, hlow, -⟩ := Net.contains_iff_between.1 hinside
  have hlast : server.network.last.value < twoPow server.address.family.width :=
    server.network.last.value_lt
  constructor
  · rintro ⟨hvalue, ha, hne⟩
    obtain ⟨hfamily, -, hle⟩ := Net.contains_iff_between.1 ha
    have hlt : a.value < server.network.last.value :=
      Nat.lt_of_le_of_ne hle fun h => hne (Address.ext_value hfamily h)
    refine ⟨hvalue ▸ hlt, Address.ext_value hfamily ?_⟩
    show a.value = (cursor.address.value + 1) % _
    rw [← hvalue, Nat.mod_eq_of_lt (Nat.lt_trans hlt hlast)]
  -- below the last address of the subnet no number is of too many bits
  · rintro ⟨hroom, rfl⟩
    have hvalue : (server.withValue (cursor.address.value + 1)).address.value =
        cursor.address.value + 1 := Nat.mod_eq_of_lt (Nat.lt_trans hroom hlast)
    refine ⟨hvalue, Net.contains_iff_between.2 ⟨rfl, ?_, ?_⟩, fun h => ?_⟩
    · omega
    · omega
    · have := congrArg Address.value h
      omega

/-- A cursor inside the subnet follows an address that is inside and above it, and stays
otherwise. -/
theorem advance_of_inside (hinside : server.network.contains cursor.address = true) (a : Net) :
    advance server a cursor =
      if server.network.contains a.address = true ∧ cursor.address.value < a.address.value then
        Net.host a.address
      else cursor := by
  rw [advance]
  exact if_congr (isBeyond_iff hinside) rfl rfl

end Allocation

namespace Service

variable {s : Service} {config : Config.Server} {random : KeyBytes} {name : String}
  {options : AddOptions} {a : Net} {p : PeerIdentity}

/-! ## Services that can be called -/

/-- A service is **poised** if it can be called: nobody is inside the section of its store, which
works; its controller has a configuration of peers with different names; and its cursor is a single
host inside the subnet. -/
structure Poised (s : Service) (config : Config.Server) : Prop where
  sound : s.store.committed.Sound
  free : s.store.free = true
  isOpen : s.store.closed = false
  loaded : s.controller.config = some config
  nodup_names : (config.peers.map Config.ServerPeer.name).Nodup
  host : Net.host s.cursor.address = s.cursor
  inside : s.settings.address.network.contains s.cursor.address = true

/-- A name is **stored** if there is a row under it. -/
def Stored (s : Service) (name : String) : Prop :=
  ∃ value, s.store.peerRows.get? (Peers.key name) = some value

/-- There is no row under a name that is not stored. -/
theorem not_stored_iff : ¬s.Stored name ↔ s.store.peerRows.get? (Peers.key name) = none := by
  rw [Stored, Option.eq_none_iff_forall_ne_some]
  exact not_exists

/-! ## Adding -/

/-- The address that a new client **finds**: the requested one, whose own network must not have the
server in it, or without a request the successor of the cursor with the prefix length of
the server. -/
inductive Finds (s : Service) : Option Net → Net → Prop where
  | requested (a : Net) (apart : a.network.contains s.settings.address.address = false) :
    Finds s (some a) a
  | automatic (a : Net) (successor : Allocation.Successor s.settings.address s.cursor a.address)
    (prefixLength : a.prefixLength = s.settings.address.prefixLength) : Finds s none a

/-- The record of a new client: a clamped private key and its public key, and lists and an interval
that are those of the options where they are given, and otherwise those of the settings. An empty
list of allowed nets counts as none, an empty list of name servers does not. -/
structure Drawn (s : Service) (random : KeyBytes) (name : String) (options : AddOptions) (a : Net)
    (p : PeerIdentity) : Prop where
  name : p.name = name
  address : p.address = a
  privateKey : p.privateKey = .generate random
  clamped : p.privateKey.Clamped
  publicKey : p.publicKey = p.privateKey.publicKey
  dns : ∀ dns, options.dns = some dns → p.dns = dns
  dns_default : options.dns = none → p.dns = s.settings.dns
  allowedIPs : options.allowedIPs ≠ [] → p.allowedIPs = options.allowedIPs
  allowedIPs_default : options.allowedIPs = [] → p.allowedIPs = s.settings.allowedIPs
  keepalive : ∀ n, options.persistentKeepalive = some n → p.persistentKeepalive = some n
  keepalive_default : options.persistentKeepalive = none →
    p.persistentKeepalive = s.settings.persistentKeepalive

/-- What becomes of an addition, in the order in which the conditions count. -/
inductive Adds (s : Service) (config : Config.Server) (random : KeyBytes) (name : String)
    (options : AddOptions) : Except ServiceError Config.Client × Service → Prop where
  | taken (stored : s.Stored name) :
    Adds s config random name options (.error (.alreadyExists .wireGuard), s)
  | overlapping (a : Net) (isNew : ¬s.Stored name) (requested : options.address = some a)
    (overlaps : a.network.contains s.settings.address.address = true) :
    Adds s config random name options (.error (.overlap a s.settings.address.address), s)
  | exhausted (isNew : ¬s.Stored name) (automatic : options.address = none)
    (noSuccessor : ¬∃ a, Allocation.Successor s.settings.address s.cursor a) :
    Adds s config random name options (.error (.exhausted s.settings.address.network), s)
  | live (a : Net) (isNew : ¬s.Stored name) (found : s.Finds options.address a)
    (isLive : name ∈ config.peers.map Config.ServerPeer.name) :
    Adds s config random name options (.error (.internal (.interface (.peerExists name))), s)
  /-- The arm is gone, and nothing else has changed. -/
  | failed (a : Net) (isNew : ¬s.Stored name) (found : s.Finds options.address a)
    (notLive : name ∉ config.peers.map Config.ServerPeer.name)
    (armed : ArmedStep.apply ∈ s.controller.armed) :
    Adds s config random name options (.error (.toolFailed "ApplyStaged" Rehearsal.injected),
      { s with controller := s.controller.disarm .apply })
  /-- One row more, one peer more at the end, and a cursor that has followed. -/
  | added (a : Net) (p : PeerIdentity) (store : Store) (isNew : ¬s.Stored name)
    (found : s.Finds options.address a)
    (notLive : name ∉ config.peers.map Config.ServerPeer.name)
    (unarmed : ArmedStep.apply ∉ s.controller.armed) (drawn : s.Drawn random name options a p)
    (row : s.store.Sets (Peers.key name) (some p.encode) store) :
    Adds s config random name options
      (.ok (s.clientConfig p),
        { s with
          store := store
          controller :=
            s.controller.load { config with peers := config.peers ++ [projection p] }
          cursor :=
            if s.settings.address.network.contains a.address = true ∧
              s.cursor.address.value < a.address.value
            then Net.host a.address else s.cursor })

/-- The address that is found is the one that is chosen. -/
theorem Poised.chooseAddress_of_finds (h : s.Poised config) {requested : Option Net}
    (hfound : s.Finds requested a) : s.chooseAddress requested = .ok a := by
  cases hfound with
  | requested _ hapart =>
    rw [chooseAddress]
    exact if_neg fun hoverlaps => Bool.false_ne_true (hapart.symm.trans hoverlaps)
  | automatic _ hsuccessor hlength =>
    obtain ⟨hroom, haddress⟩ := (Allocation.successor_iff h.inside).1 hsuccessor
    rw [chooseAddress, Allocation.next_of_inside h.host h.inside, if_pos hroom]
    exact congrArg Except.ok (Net.ext_parts haddress.symm hlength.symm)

/-- Without a successor of the cursor no address is chosen, and the subnet is exhausted. -/
theorem Poised.chooseAddress_none (h : s.Poised config)
    (hnone : ¬∃ a, Allocation.Successor s.settings.address s.cursor a) :
    s.chooseAddress none = .error (.exhausted s.settings.address.network) := by
  rw [chooseAddress, Allocation.next_of_inside h.host h.inside,
    if_neg fun hroom => hnone ⟨_, (Allocation.successor_iff h.inside).2 ⟨hroom, rfl⟩⟩]

/-- Every addition finds an address, or there is a reason that it does not: the requested one
overlaps, or there is no successor. -/
theorem Poised.finds_or (h : s.Poised config) (requested : Option Net) :
    (∃ a, s.Finds requested a) ∨
      (∃ a, requested = some a ∧ a.network.contains s.settings.address.address = true) ∨
      requested = none ∧ ¬∃ a, Allocation.Successor s.settings.address s.cursor a := by
  cases requested with
  | some a =>
    cases hoverlaps : a.network.contains s.settings.address.address with
    | true => exact .inr (.inl ⟨a, rfl, hoverlaps⟩)
    | false => exact .inl ⟨a, .requested a hoverlaps⟩
  | none =>
    by_cases hsuccessor : ∃ a, Allocation.Successor s.settings.address s.cursor a
    · obtain ⟨a, ha⟩ := hsuccessor
      obtain ⟨-, rfl⟩ := (Allocation.successor_iff h.inside).1 ha
      exact .inl ⟨_, .automatic (s.settings.address.withValue _) ha rfl⟩
    · exact .inr (.inr ⟨rfl, hsuccessor⟩)

/-- The record that is written is drawn like this. -/
theorem drawn_newPeer (s : Service) (random : KeyBytes) (name : String) (options : AddOptions)
    (a : Net) :
    s.Drawn random name options a (s.newPeer (.generate random) name a options) where
  name := rfl
  address := rfl
  privateKey := rfl
  clamped := PrivateKey.clamped_generate random
  publicKey := rfl
  dns dns h := by rw [newPeer, h, Option.getD_some]
  dns_default h := by rw [newPeer, h, Option.getD_none]
  allowedIPs h := if_neg fun hempty => h (List.isEmpty_iff.1 hempty)
  allowedIPs_default h := if_pos (List.isEmpty_iff.2 h)
  keepalive n h := by
    rw [newPeer, h]
    rfl
  keepalive_default h := by
    rw [newPeer, h]
    rfl

/-- No other record is drawn like this: each field is decided by the options and the settings. -/
theorem Drawn.eq (h : s.Drawn random name options a p) :
    p = s.newPeer (.generate random) name a options := by
  have hpublic : p.publicKey = (PrivateKey.generate random).publicKey := h.privateKey ▸ h.publicKey
  have hdns : p.dns = options.dns.getD s.settings.dns := by
    cases hoption : options.dns with
    | none => exact h.dns_default hoption
    | some dns => exact h.dns dns hoption
  have hallowed : p.allowedIPs =
      if options.allowedIPs.isEmpty then s.settings.allowedIPs else options.allowedIPs := by
    cases hoption : options.allowedIPs with
    | nil => exact h.allowedIPs_default hoption
    | cons x xs => exact (h.allowedIPs (hoption ▸ List.cons_ne_nil x xs)).trans hoption
  have hkeepalive : p.persistentKeepalive =
      (options.persistentKeepalive <|> s.settings.persistentKeepalive) := by
    cases hoption : options.persistentKeepalive with
    | none => exact h.keepalive_default hoption
    | some n => exact h.keepalive n hoption
  -- each field is one of the record that is written
  rw [newPeer, ← hdns, ← hallowed, ← hkeepalive, ← hpublic, ← h.privateKey, ← h.address, ← h.name]

/-- The relation holds of something, whatever is asked for. -/
theorem Poised.exists_adds (h : s.Poised config) (random : KeyBytes) (name : String)
    (options : AddOptions) : ∃ r, s.Adds config random name options r := by
  by_cases hstored : s.Stored name
  · exact ⟨_, .taken hstored⟩
  rcases h.finds_or options.address with ⟨a, hfound⟩ | ⟨a, hrequested, hoverlaps⟩ | ⟨hauto, hnone⟩
  · by_cases hlive : name ∈ config.peers.map Config.ServerPeer.name
    · exact ⟨_, .live a hstored hfound hlive⟩
    by_cases harmed : ArmedStep.apply ∈ s.controller.armed
    · exact ⟨_, .failed a hstored hfound hlive harmed⟩
    · exact ⟨_, .added a _ _ hstored hfound hlive harmed (s.drawn_newPeer random name options a)
        (Store.sets_insert h.sound _ _)⟩
  · exact ⟨_, .overlapping a hstored hrequested hoverlaps⟩
  · exact ⟨_, .exhausted hstored hauto hnone⟩

/-- An addition that finds an address is done unless the controller refuses, and the controller
refuses only if it is armed. -/
theorem Poised.add_eq_of_chosen (h : s.Poised config) {fresh : PrivateKey}
    (hnew : ¬s.Stored name) (hchosen : s.chooseAddress options.address = .ok a)
    (hlive : name ∉ config.peers.map Config.ServerPeer.name) :
    s.add fresh name options =
      if ArmedStep.apply ∈ s.controller.armed then
        (.error (.toolFailed "ApplyStaged" Rehearsal.injected),
          { s with controller := s.controller.disarm .apply })
      else
        (.ok (s.clientConfig (s.newPeer fresh name a options)),
          s.added (s.newPeer fresh name a options) (s.controller.load { config with
            peers := config.peers ++ [projection (s.newPeer fresh name a options)] })) := by
  have hfind : config.find? (projection (s.newPeer fresh name a options)).name = none :=
    Config.Server.find?_eq_none_iff.2 hlive
  rw [add_eq h.sound h.free h.isOpen, not_stored_iff.1 hnew, hchosen]
  simp only
  rw [Controller.stage_eq h.loaded hfind]
  simp only
  rw [Controller.apply_eq h.loaded hfind]
  by_cases harmed : ArmedStep.apply ∈ s.controller.armed
  · rw [if_pos harmed, if_pos harmed]
    rfl
  · rw [if_neg harmed, if_neg harmed]

/-- The relation holds of nothing but what adding gives. -/
theorem Poised.add_of_adds (h : s.Poised config) {r : Except ServiceError Config.Client × Service}
    (hr : s.Adds config random name options r) : s.add (.generate random) name options = r := by
  -- each condition makes the tests in front of it pass and its own fail
  cases hr with
  | taken hstored =>
    obtain ⟨value, hget⟩ := hstored
    rw [add_eq h.sound h.free h.isOpen, hget]
  | overlapping a hnew hrequested hoverlaps =>
    rw [add_eq h.sound h.free h.isOpen, not_stored_iff.1 hnew, hrequested, chooseAddress,
      Net.overlaps, hoverlaps]
    rfl
  | exhausted hnew hauto hnone =>
    rw [add_eq h.sound h.free h.isOpen, not_stored_iff.1 hnew, hauto, h.chooseAddress_none hnone]
  | live a hnew hfound hlive =>
    rw [add_eq h.sound h.free h.isOpen, not_stored_iff.1 hnew, h.chooseAddress_of_finds hfound]
    simp only
    rw [Controller.stage_eq_error h.loaded (show (config.find? _).isSome = true from
      Config.Server.isSome_find?_iff.2 hlive)]
    rfl
  | failed a hnew hfound hlive harmed =>
    rw [h.add_eq_of_chosen hnew (h.chooseAddress_of_finds hfound) hlive, if_pos harmed]
  | added a p store hnew hfound hlive hunarmed hdrawn hrow =>
    obtain rfl := hdrawn.eq
    obtain rfl := (Store.sets_insert h.sound _ _).eq hrow
    rw [h.add_eq_of_chosen hnew (h.chooseAddress_of_finds hfound) hlive, if_neg hunarmed, added,
      Allocation.advance_of_inside h.inside]
    rfl

/-! ## Removing -/

/-- What becomes of a removal, in the order in which the conditions count. -/
inductive Removes (s : Service) (config : Config.Server) (name : String) :
    Except ServiceError Unit × Service → Prop where
  | missing (notStored : ¬s.Stored name) : Removes s config name (.error (.notFound .wireGuard), s)
  | unread (value : Bytes) (e : StoreError)
    (stored : s.store.peerRows.get? (Peers.key name) = some value)
    (refused : PeerIdentity.decode name value = .error e) :
    Removes s config name (.error (.internal (.store e)), s)
  | dead (value : Bytes) (p : PeerIdentity)
    (stored : s.store.peerRows.get? (Peers.key name) = some value)
    (read : PeerIdentity.decode name value = .ok p)
    (notLive : name ∉ config.peers.map Config.ServerPeer.name) :
    Removes s config name (.error (.internal (.notLive name)), s)
  /-- The arm is gone, and the row is written anew from what was read of it. -/
  | failed (value : Bytes) (p : PeerIdentity) (store : Store)
    (stored : s.store.peerRows.get? (Peers.key name) = some value)
    (read : PeerIdentity.decode name value = .ok p)
    (isLive : name ∈ config.peers.map Config.ServerPeer.name)
    (armed : ArmedStep.remove ∈ s.controller.armed)
    (row : s.store.Sets (Peers.key name) (some p.encode) store) :
    Removes s config name (.error (.toolFailed "RemovePeer" Rehearsal.injected),
      { s with store := store, controller := s.controller.disarm .remove })
  /-- The row is gone and so is the peer; the cursor stays. -/
  | removed (value : Bytes) (p : PeerIdentity) (store : Store)
    (stored : s.store.peerRows.get? (Peers.key name) = some value)
    (read : PeerIdentity.decode name value = .ok p)
    (isLive : name ∈ config.peers.map Config.ServerPeer.name)
    (unarmed : ArmedStep.remove ∉ s.controller.armed)
    (row : s.store.Sets (Peers.key name) none store) :
    Removes s config name
      (.ok (),
        { s with
          store := store
          controller :=
            s.controller.load { config with peers := config.peers.filter fun q => q.name ≠ name } })

/-- The relation holds of something, whatever the name is. -/
theorem Poised.exists_removes (h : s.Poised config) (name : String) :
    ∃ r, s.Removes config name r := by
  by_cases hstored : s.Stored name
  · obtain ⟨value, hget⟩ := hstored
    cases hread : PeerIdentity.decode name value with
    | error e => exact ⟨_, .unread value e hget hread⟩
    | ok p =>
      by_cases hlive : name ∈ config.peers.map Config.ServerPeer.name
      · by_cases harmed : ArmedStep.remove ∈ s.controller.armed
        · exact ⟨_, .failed value p _ hget hread hlive harmed (Store.sets_insert h.sound _ _)⟩
        · exact ⟨_, .removed value p _ hget hread hlive harmed (Store.sets_erase h.sound _)⟩
      · exact ⟨_, .dead value p hget hread hlive⟩
  · exact ⟨_, .missing hstored⟩

/-- A row that is read can be removed. -/
theorem Poised.eraseOld_read (h : s.Poised config) {value : Bytes}
    (hget : s.store.peerRows.get? (Peers.key name) = some value)
    (hread : PeerIdentity.decode name value = .ok p) :
    eraseOld name ⟨.update, s.store.committed⟩ =
      (.ok p, ⟨.update,
        s.store.committed.withRows .peers (s.store.peerRows.erase (Peers.key name))⟩) := by
  rw [eraseOld, run_eq (Peers.run_get h.sound name), ← Store.peerRows, hget]
  simp only [hread, run_eq (Peers.run_remove h.sound hget)]
  rfl

/-- A live client passes the check, and no other one does. -/
theorem Poised.checkLive_eq (h : s.Poised config) (name : String) :
    s.checkLive name =
      if name ∈ config.peers.map Config.ServerPeer.name then .ok ()
      else .error (.internal (.notLive name)) := by
  rw [checkLive, Controller.has_eq h.loaded]
  by_cases hlive : name ∈ config.peers.map Config.ServerPeer.name
  · rw [Config.Server.isSome_find?_iff.2 hlive, if_pos hlive]
  · rw [Config.Server.find?_eq_none_iff.2 hlive, if_neg hlive]
    rfl

/-- The relation holds of nothing but what removing gives. -/
theorem Poised.remove_of_removes (h : s.Poised config) {r : Except ServiceError Unit × Service}
    (hr : s.Removes config name r) : s.remove name = r := by
  rw [remove, begin_eq h.free h.isOpen]
  cases hr with
  | missing hmissing =>
    have herase : eraseOld name ⟨.update, s.store.committed⟩ =
        (.error (.notFound .wireGuard), ⟨.update, s.store.committed⟩) := by
      rw [eraseOld, run_eq (Peers.run_get h.sound name), ← Store.peerRows,
        not_stored_iff.1 hmissing]
    simp only [herase, rolledBack h.free]
  | unread value e hget hrefused =>
    have he := PeerIdentity.decode_onlyOfBytes name value e hrefused
    have herase : eraseOld name ⟨.update, s.store.committed⟩ =
        (.error (.internal (.store e)), ⟨.update, s.store.committed⟩) := by
      rw [eraseOld, run_eq (Peers.run_get h.sound name), ← Store.peerRows, hget]
      simp only [hrefused]
      rw [← ServiceError.ofStore_of_ofBytes he]
      cases e with
      | notFound what =>
        -- this is said of a row and never of its bytes
        obtain he | he := he
        · exact he.elim
        · cases he
      | _ => rfl
    simp only [herase, rolledBack h.free]
  | dead value p hget hread hlive =>
    simp only [h.eraseOld_read hget hread]
    rw [h.checkLive_eq, if_neg hlive]
    simp only [rolledBack h.free]
  | failed value p store hget hread hlive harmed hrow =>
    obtain rfl := (PeerIdentity.of_decode hread).1
    obtain rfl := (Store.sets_insert h.sound _ _).eq hrow
    simp only [h.eraseOld_read hget hread]
    rw [h.checkLive_eq, if_pos hlive]
    simp only
    rw [Controller.remove_eq h.loaded (Config.Server.isSome_find?_iff.2 hlive), if_pos harmed]
    simp only [undo_remove h.sound h.free h.isOpen p rfl]
    rfl
  | removed value p store hget hread hlive hunarmed hrow =>
    obtain rfl := (Store.sets_erase h.sound _).eq hrow
    simp only [h.eraseOld_read hget hread]
    rw [h.checkLive_eq, if_pos hlive]
    simp only
    rw [Controller.remove_eq h.loaded (Config.Server.isSome_find?_iff.2 hlive), if_neg hunarmed,
      eraseP_eq_filter h.nodup_names]
    simp only [Store.release_commit h.free]
    rfl

/-! ## Services stay poised -/

/-- A service that was started on a sound store is poised, whatever is stored there. -/
theorem poised_of_start {settings : ServiceSettings} {fresh : PrivateKey} {store : Store}
    {controller : Controller} (hsound : store.committed.Sound)
    (h : start settings fresh store controller = .ok s) : ∃ config, s.Poised config := by
  obtain ⟨i, peers, hstarted⟩ := of_start_eq_ok h
  refine ⟨_, hstarted.sound hsound, hstarted.free, hstarted.isOpen,
    congrArg Controller.config hstarted.controller_eq, ?_, hstarted.above.host,
    hstarted.above.inside⟩
  show ((peers.map projection).map Config.ServerPeer.name).Nodup
  rw [List.map_map]
  exact Rows.nodup_names hstarted.read

/-- The arms of the controller do not matter: with the same configuration the service is poised. -/
theorem Poised.controller (h : s.Poised config) {c : Controller}
    (hc : c.config = s.controller.config) : Poised { s with controller := c } config :=
  ⟨h.sound, h.free, h.isOpen, hc.trans h.loaded, h.nodup_names, h.host, h.inside⟩

/-- Adding a client leaves a service that can be called, whatever comes of it. -/
theorem Poised.add (h : s.Poised config) (fresh : PrivateKey) (name : String)
    (options : AddOptions) : ∃ config', (s.add fresh name options).2.Poised config' := by
  have houtcome := add_outcome h.sound h.free fresh name options
  generalize s.add fresh name options = r at houtcome ⊢
  cases houtcome with
  | refused => exact ⟨config, h⟩
  | undone _ c hc => exact ⟨config, h.controller hc⟩
  | added a config' _ _ hloaded hlive =>
    -- the names stay different, and the cursor stays inside or follows an address inside
    obtain rfl : config = config' := Option.some.inj (h.loaded.symm.trans hloaded)
    refine ⟨_, h.sound.withRows .peers _, h.free, h.isOpen, rfl,
      Config.Server.nodup_names_concat h.nodup_names (Config.Server.find?_eq_none_iff.1 hlive),
      ?_, ?_⟩
    · show Net.host (Allocation.advance _ a s.cursor).address = Allocation.advance _ a s.cursor
      rw [Allocation.advance_of_inside h.inside]
      split
      · rfl
      · exact h.host
    · show s.settings.address.network.contains (Allocation.advance _ a s.cursor).address = true
      rw [Allocation.advance_of_inside h.inside]
      split
      · next hbeyond => exact hbeyond.1
      · exact h.inside

/-- Removing a client leaves a service that can be called, whatever comes of it. -/
theorem Poised.remove (h : s.Poised config) (name : String) :
    ∃ config', (s.remove name).2.Poised config' := by
  have houtcome := remove_outcome h.sound h.free name
  generalize s.remove name = r at houtcome ⊢
  cases houtcome with
  | refused => exact ⟨config, h⟩
  | undone _ c p value _ _ _ hc =>
    exact ⟨config, h.sound.withRows .peers _, h.free, h.isOpen, hc.trans h.loaded, h.nodup_names,
      h.host, h.inside⟩
  | removed p value config' _ _ _ hloaded hlive =>
    obtain rfl : config = config' := Option.some.inj (h.loaded.symm.trans hloaded)
    exact ⟨_, h.sound.withRows .peers _, h.free, h.isOpen, rfl,
      (List.eraseP_sublist.map _).nodup h.nodup_names, h.host, h.inside⟩

/-! ## The calls are the relations -/

/-- Adding and removing a client are the relations: every answer is given under its condition and no
other one, and what it leaves behind is what the relation says, row by row. -/
theorem add_remove_exact (h : s.Poised config) :
    (∀ random name options r,
      s.add (.generate random) name options = r ↔ s.Adds config random name options r) ∧
    ∀ name r, s.remove name = r ↔ s.Removes config name r := by
  refine ⟨fun random name options r => ⟨?_, h.add_of_adds⟩, fun name r => ⟨?_, h.remove_of_removes⟩⟩
  · rintro rfl
    obtain ⟨r, hr⟩ := h.exists_adds random name options
    rwa [h.add_of_adds hr]
  · rintro rfl
    obtain ⟨r, hr⟩ := h.exists_removes name
    rwa [h.remove_of_removes hr]

/-- A client that is stored, and one that is live. -/
def disagreeingPeers : PeerIdentity × PeerIdentity :=
  let peer name n :=
    ⟨name, sampleSettings.address.withValue n, ⟨.ofNat n⟩, ⟨.ofNat n⟩, [], [], none⟩
  (peer "bob" 0x0A090802, peer "alice" 0x0A090803)

/-- The configuration of the interface with the second of them. -/
def disagreeingConfig : Config.Server :=
  interfaceConfig sampleSettings "wg0" ⟨⟨.ofNat 1⟩⟩ [disagreeingPeers.2]

/-- A service with the first of them in its store, and an arm. -/
def disagreeing : Service where
  settings := sampleSettings
  publicKey := ⟨.ofNat 1⟩
  cursor := Net.host (.ofNat .v4 0x0A090803)
  store := ({} : Store).withPeers ((∅ : Rows).insert (Peers.key "bob") disagreeingPeers.1.encode)
  controller := ⟨"wg0.conf", "wg0", some disagreeingConfig, [.apply]⟩

/-- Where the store and the controller disagree, a name that only the controller has is refused by
it, a new name meets the arm, and a name that only the store has is not removed. -/
theorem disagreeing_exact :
    disagreeing.add (.generate (.ofNat 2)) "alice" {} =
        (.error (.internal (.interface (.peerExists "alice"))), disagreeing) ∧
      disagreeing.add (.generate (.ofNat 3)) "carol" {} =
        (.error (.toolFailed "ApplyStaged" Rehearsal.injected),
          { disagreeing with controller := ⟨"wg0.conf", "wg0", some disagreeingConfig, []⟩ }) ∧
      disagreeing.remove "bob" = (.error (.internal (.notLive "bob")), disagreeing) := by
  have hpoised : disagreeing.Poised disagreeingConfig :=
    ⟨Database.sound_empty.withRows .peers _, rfl, rfl, rfl, by decide, rfl, by decide +kernel⟩
  have hget : disagreeing.store.peerRows.get? (Peers.key "bob") =
      some disagreeingPeers.1.encode := by
    rw [disagreeing, Store.peerRows_withPeers, Rows.get?_insert_self]
  have hnew : ∀ name, name ≠ "bob" → ¬disagreeing.Stored name := fun name hne => by
    rw [not_stored_iff, disagreeing, Store.peerRows_withPeers, Rows.get?_insert,
      if_neg fun hkey => hne (Peers.key_inj.1 hkey), Rows.get?_empty]
  have hfound : disagreeing.Finds none (sampleSettings.address.withValue 0x0A090804) :=
    .automatic _ ⟨rfl, by decide +kernel, by decide +kernel⟩ rfl
  -- each answer follows from its rule, and nothing is evaluated
  obtain ⟨hadd, hremove⟩ := add_remove_exact hpoised
  refine ⟨(hadd _ _ _ _).2 ?_, (hadd _ _ _ _).2 ?_, (hremove _ _).2 ?_⟩
  · exact .live _ (hnew _ (by decide)) hfound (by decide)
  · exact .failed _ (hnew _ (by decide)) hfound (by decide) (by decide)
  · exact .dead _ _ hget (PeerIdentity.decode_encode ⟨by decide, by decide⟩ "bob") (by decide)

end Service

end WireKeeper
