import WireKeeper.Proofs.Service.Relations
import WireKeeper.Proofs.Service.Resume

/-! # Automatic addresses in order

On a store without clients, additions that ask for no address are answered with the addresses above
the server's, one after the other, and then with none: the subnet's last address is not given, and
the cursor, which is at the server when the service starts, stands for good where it has come to.
What is removed in between makes no difference.

* `Service.Automatic`, `Service.answers`: such runs, and how their additions are answered;
* `Service.automaticAnswer`: the answer to each of them;
* `Service.Counting`: the invariant, with one lemma for each call;
* `Service.automatic_enumeration`: every run. -/

namespace WireKeeper.Service

variable {s : Service} {settings : ServiceSettings} {k : Nat}

/-! ## Runs of additions -/

/-- An **automatic** occurrence: nothing fails, and clients are added under names that are not
stored and without asking for an address. -/
def Automatic (s : Service) : Occurrence → Prop
  | .call (.add _ name options) => options.address = none ∧ ¬s.Stored name
  | .call (.remove _) | .call (.get _) | .call .infos => True
  | .call (.arm _) | .block .. => False

/-- Whether a name is stored can be decided, by looking into the rows. -/
instance decidableStored (s : Service) (name : String) : Decidable (s.Stored name) :=
  decidable_of_iff _ Option.isSome_iff_exists

/-- Whether an occurrence is automatic can be decided, call by call. -/
instance decidableAutomatic (s : Service) : (o : Occurrence) → Decidable (s.Automatic o)
  | .call (.add _ name options) =>
    inferInstanceAs (Decidable (options.address = none ∧ ¬s.Stored name))
  | .call (.remove _) | .call (.get _) | .call .infos => .isTrue trivial
  | .call (.arm _) | .block .. => .isFalse id

/-- The address that is given to an addition, or why none is; other calls are not answered
with one. -/
def answer (s : Service) : Occurrence → List (Except ServiceError Net)
  | .call (.add fresh name options) => [addressOf (s.add fresh name options).1]
  | _ => []

/-- The answers to all additions of a run, in order. -/
def answers (s : Service) : List Occurrence → List (Except ServiceError Net)
  | [] => []
  | o :: os => s.answer o ++ (s.meet o).answers os

/-- How many additions an occurrence is: one or none. -/
def Occurrence.asks : Occurrence → Nat
  | .call (.add ..) => 1
  | _ => 0

/-- How many additions a run has, answered or not. -/
def asked : List Occurrence → Nat
  | [] => 0
  | o :: os => o.asks + asked os

/-- The answer to an automatic addition that has so many before it: the address one further above
the server, as long as that is below the last one of the subnet. -/
def automaticAnswer (server : Net) (k : Nat) : Except ServiceError Net :=
  if server.address.value + (k + 1) < server.network.last.value then
    .ok (server.withValue (server.address.value + (k + 1)))
  else .error (.exhausted server.network)

/-! ## The invariant -/

/-- The service is **counting** `k`: so many automatic additions were asked for, and the cursor is
as many above the server, or at the last address that can be given. -/
structure Counting (settings : ServiceSettings) (k : Nat) (s : Service) : Prop where
  settings_eq : s.settings = settings
  poised : ∃ config, s.Poised config
  unarmed : s.controller.armed = []
  stored : ∀ q ∈ s.controller.peers, s.Stored q.name
  cursor : s.cursor.address.value = settings.address.address.value +
    min k (settings.address.network.last.value - 1 - settings.address.address.value)

/-- A service that was started on a store without clients counts from zero, and it does start. -/
theorem exists_start_counting {store : Store} {controller : Controller}
    (hsound : store.committed.Sound) (hfree : store.free = true) (hopen : store.closed = false)
    (hidentified : Identified store.committed) (hempty : store.peerRows = ∅)
    (hunarmed : controller.armed = []) (settings : ServiceSettings) (fresh : PrivateKey) :
    ∃ s, start settings fresh store controller = .ok s ∧ Counting settings 0 s := by
  have hreadable : store.peerRows.Readable := fun r hr => by
    rw [hempty] at hr
    exact absurd hr List.not_mem_nil
  obtain ⟨s, hs, -⟩ :=
    exists_start hsound hfree hopen hidentified hreadable settings fresh controller
  obtain ⟨i, peers, hstarted⟩ := of_start_eq_ok hs
  have hread := hstarted.read
  rw [hempty] at hread
  -- no rows are read as no peers, so nothing moves the cursor
  cases hread
  refine ⟨s, hs, hstarted.settings_eq, poised_of_start hsound hs, ?_, ?_, ?_⟩
  · rw [hstarted.controller_eq]
    exact hunarmed
  · intro q hq
    rw [hstarted.controller_eq] at hq
    exact absurd hq List.not_mem_nil
  · rw [hstarted.cursor_eq, Nat.zero_min]
    rfl

/-- A name is stored after an addition if it is the new one or was stored. -/
theorem stored_added {p : PeerIdentity} {c : Controller} {name : String} :
    (s.added p c).Stored name ↔ name = p.name ∨ s.Stored name := by
  rw [Stored, added, Store.peerRows_withPeers, Rows.get?_insert]
  by_cases h : name = p.name
  · rw [if_pos (congrArg Peers.key h)]
    exact ⟨fun _ => .inl h, fun _ => ⟨_, rfl⟩⟩
  · rw [if_neg fun hkey => h (Peers.key_inj.1 hkey)]
    exact ⟨.inr, fun hor => hor.resolve_left h⟩

/-- The answer is the one that the cursor gives: `s.chooseAddress none = automaticAnswer
settings.address k`. -/
theorem Counting.chooseAddress_eq (h : Counting settings k s) :
    s.chooseAddress none = automaticAnswer settings.address k := by
  obtain ⟨config, hp⟩ := h.poised
  have hcursor := h.cursor
  rw [chooseAddress, Allocation.next_of_inside hp.host hp.inside, h.settings_eq, automaticAnswer]
  -- the cursor has come as far as additions were asked for, unless it has come to the end
  by_cases hroom : settings.address.address.value + (k + 1) < settings.address.network.last.value
  · have hvalue : s.cursor.address.value + 1 = settings.address.address.value + (k + 1) := by omega
    rw [hvalue]
  · rw [if_neg hroom, if_neg]
    omega

/-- What is live is stored, and nothing is armed: so what finds an address is added. -/
theorem Counting.add_eq (h : Counting settings k s) (fresh : PrivateKey) {name : String}
    {options : AddOptions} {a : Net} (hnew : ¬s.Stored name)
    (hchosen : s.chooseAddress options.address = .ok a) :
    ∃ c : Controller, s.add fresh name options =
      (.ok (s.clientConfig (s.newPeer fresh name a options)),
        s.added (s.newPeer fresh name a options) c) ∧
      c.armed = [] ∧ ∀ q ∈ c.peers, s.Stored q.name ∨ q.name = name := by
  obtain ⟨config, hp⟩ := h.poised
  have hstored := h.stored
  rw [Controller.peers_eq hp.loaded] at hstored
  have hlive : name ∉ config.peers.map Config.ServerPeer.name := fun hmem => by
    obtain ⟨q, hq, rfl⟩ := List.mem_map.1 hmem
    exact hnew (hstored q hq)
  refine ⟨s.controller.load { config with
    peers := config.peers ++ [projection (s.newPeer fresh name a options)] }, ?_, h.unarmed,
    fun q hq => ?_⟩
  · rw [hp.add_eq_of_chosen hnew hchosen hlive, if_neg]
    rw [h.unarmed]
    exact List.not_mem_nil
  · rcases List.mem_append.1 hq with hq | hq
    · exact .inl (hstored q hq)
    · cases List.mem_singleton.1 hq
      exact .inr rfl

/-- An automatic addition is answered by the next address or by none, and counts: the service is
counting one more. -/
theorem Counting.add (h : Counting settings k s) (fresh : PrivateKey) {name : String}
    {options : AddOptions} (hauto : options.address = none) (hnew : ¬s.Stored name) :
    addressOf (s.add fresh name options).1 = automaticAnswer settings.address k ∧
      Counting settings (k + 1) (s.add fresh name options).2 := by
  obtain ⟨config, hp⟩ := h.poised
  obtain rfl := h.settings_eq
  have hpoised := hp.add fresh name options
  have hchoose := h.chooseAddress_eq
  have hcursor := h.cursor
  rw [← hauto] at hchoose
  by_cases hroom : s.settings.address.address.value + (k + 1) <
    s.settings.address.network.last.value
  · rw [automaticAnswer, if_pos hroom] at hchoose ⊢
    obtain ⟨c, hadd, harmed, hstored⟩ := h.add_eq fresh hnew hchoose
    rw [hadd] at hpoised ⊢
    refine ⟨rfl, rfl, hpoised, harmed, fun q hq => stored_added.2 (hstored q hq).symm, ?_⟩
    -- the new address is the successor of the cursor, which follows it
    have hvalue : s.settings.address.address.value + (k + 1) = s.cursor.address.value + 1 := by
      omega
    rw [hvalue] at hroom ⊢
    have hsuccessor := (Allocation.successor_iff hp.inside).2 ⟨hroom, rfl⟩
    show (Allocation.advance s.settings.address
      (s.settings.address.withValue (s.cursor.address.value + 1)) s.cursor).address.value = _
    rw [Allocation.advance_of_inside hp.inside,
      if_pos ⟨hsuccessor.inside, Nat.lt_of_lt_of_eq (Nat.lt_succ_self _) hsuccessor.value.symm⟩]
    show (s.settings.address.withValue (s.cursor.address.value + 1)).address.value = _
    rw [hsuccessor.value]
    omega
  · rw [automaticAnswer, if_neg hroom] at hchoose ⊢
    have hadd : s.add fresh name options = (.error (.exhausted s.settings.address.network), s) := by
      rw [Service.add_eq hp.sound hp.free hp.isOpen, not_stored_iff.1 hnew, hchoose]
    rw [hadd]
    refine ⟨rfl, rfl, h.poised, h.unarmed, h.stored, hcursor.trans ?_⟩
    omega

/-- A removal makes no difference: the service is counting as before, as the cursor stays where it
is. -/
theorem Counting.remove (h : Counting settings k s) (name : String) :
    Counting settings k (s.remove name).2 := by
  obtain ⟨config, hp⟩ := h.poised
  have hpoised := hp.remove name
  obtain ⟨r, hr⟩ := hp.exists_removes name
  rw [hp.remove_of_removes hr] at hpoised ⊢
  -- what can come of a removal: a refusal that changes nothing, an arm, which there is none of, or
  -- the removal itself
  cases hr with
  | missing => exact h
  | unread => exact h
  | dead => exact h
  | failed _ _ _ _ _ _ harmed =>
    rw [h.unarmed] at harmed
    exact absurd harmed List.not_mem_nil
  | removed value p store hget hread hlive hunarmed hrow =>
    refine ⟨h.settings_eq, hpoised, h.unarmed, fun q hq => ?_, h.cursor⟩
    -- what is still live has another name, and so a row that was not removed
    obtain ⟨hq, hne⟩ := List.mem_filter.1 hq
    obtain ⟨value', hvalue'⟩ := h.stored q (Controller.peers_eq hp.loaded ▸ hq)
    have hkey : Peers.key q.name ≠ Peers.key name := fun hkey =>
      of_decide_eq_true hne (Peers.key_inj.1 hkey)
    exact ⟨value', (hrow.others .peers _ (.inr hkey)).trans hvalue'⟩

/-- Every occurrence of an automatic run is answered as it should be, and counted. -/
theorem Counting.meet (h : Counting settings k s) {o : Occurrence} (ho : s.Automatic o) :
    s.answer o = (List.range' k o.asks).map (automaticAnswer settings.address) ∧
      Counting settings (k + o.asks) (s.meet o) := by
  cases o with
  | block => exact ho.elim
  | call c =>
    cases c with
    | add fresh name options =>
      obtain ⟨hanswer, hcounting⟩ := h.add fresh ho.1 ho.2
      exact ⟨congrArg (fun x => [x]) hanswer, hcounting⟩
    | remove name => exact ⟨rfl, h.remove name⟩
    | get name => exact ⟨rfl, h⟩
    | infos => exact ⟨rfl, h⟩
    | arm step => exact ho.elim

/-! ## Runs -/

/-- The additions of an automatic run are answered one after the other, from the `k`-th answer on.
The induction is on the run. -/
theorem Counting.answers_eq (h : Counting settings k s) {os : List Occurrence}
    (hos : s.Throughout Automatic os) :
    s.answers os = (List.range' k (asked os)).map (automaticAnswer settings.address) := by
  induction os generalizing s k with
  | nil => rfl
  | cons o os ih =>
    obtain ⟨hanswer, hmeet⟩ := h.meet hos.1
    rw [answers, hanswer, ih hmeet hos.2, ← List.map_append, List.range'_append_1, asked]

/-- A service is started on a store without clients, nothing fails, and clients are only added under
new names and without asking for an address. Then the additions are given the addresses above the
server's one by one, up to the one before the last of the subnet, and from then on no address is
left, whatever is removed in between. Where the server's address is the last one or the one before
it, none is given at all. -/
theorem automatic_enumeration (settings : ServiceSettings) (fresh : PrivateKey) (store : Store)
    (controller : Controller) (hsound : store.committed.Sound) (hfree : store.free = true)
    (hopen : store.closed = false) (hidentified : Identified store.committed)
    (hempty : store.peerRows = ∅) (hunarmed : controller.armed = []) :
    ∃ s, start settings fresh store controller = .ok s ∧
      ∀ os, s.Throughout Automatic os →
        s.answers os = (List.range (asked os)).map (automaticAnswer settings.address) := by
  obtain ⟨s, hs, h⟩ := exists_start_counting hsound hfree hopen hidentified hempty hunarmed settings
    fresh
  refine ⟨s, hs, fun os hos => ?_⟩
  rw [h.answers_eq hos, List.range_eq_range']

/-- A server at `10.9.8.4/29`, below two addresses and the last one of its subnet. -/
def narrowSettings : ServiceSettings :=
  { sampleSettings with address := ⟨.ofNat .v4 0x0A090804, 29, by decide⟩ }

/-- Four additions, with removals between them. -/
def narrowRun : List Occurrence :=
  [.call (.add ⟨.ofNat 2⟩ "alice" {}), .call (.remove "alice"), .call (.add ⟨.ofNat 3⟩ "alice" {}),
    .call (.add ⟨.ofNat 4⟩ "bob" {}), .call (.remove "alice"), .call (.add ⟨.ofNat 5⟩ "bob" {})]

/-- Two of them are given the two addresses, and the others none, though both clients are gone by
then. -/
theorem automatic_enumeration_narrow :
    ∃ s, start narrowSettings ⟨.ofNat 1⟩ {} ⟨"wg0.conf", "wg0", none, []⟩ = .ok s ∧
      s.answers narrowRun =
        [.ok (narrowSettings.address.withValue 0x0A090805),
          .ok (narrowSettings.address.withValue 0x0A090806),
          .error (.exhausted narrowSettings.address.network),
          .error (.exhausted narrowSettings.address.network)] := by
  have hidentified : Identified Database.empty := by
    intro value h
    cases h
  obtain ⟨s, hs, hall⟩ := automatic_enumeration narrowSettings ⟨.ofNat 1⟩ {}
    ⟨"wg0.conf", "wg0", none, []⟩ Database.sound_empty rfl rfl hidentified rfl rfl
  have hok : (start narrowSettings ⟨.ofNat 1⟩ {} ⟨"wg0.conf", "wg0", none, []⟩).toOption.map
      (fun s => decide (s.Throughout Automatic narrowRun)) = some true := by
    decide +kernel
  rw [hs] at hok
  refine ⟨s, hs, (hall _ (of_decide_eq_true (Option.some.inj hok))).trans ?_⟩
  decide +kernel

end WireKeeper.Service
