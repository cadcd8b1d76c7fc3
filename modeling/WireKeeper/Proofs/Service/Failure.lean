import WireKeeper.Proofs.Service.Transitions

/-! # Calls that fail

A call that fails leaves the service as it was, whichever of its steps failed: before the record was
written, between that and the commit, or after the commit, when a second transaction undoes the
first. Only the arm that made a step fail is gone.

The undoing transaction encodes the removed record anew. That gives back the bytes of the row, since
the row was written from a record itself. -/

namespace WireKeeper.Service

variable {s s' : Service} {name : String}

/-- A service is **unchanged** if whatever can be seen of it is as it was: the rows of all buckets,
the configuration at the controller, the next automatic address and the section of the store. -/
structure Unchanged (s s' : Service) : Prop where
  rows : ∀ b, s'.store.committed.rows b = s.store.committed.rows b
  config : s'.controller.config = s.controller.config
  next : s'.chooseAddress none = s.chooseAddress none
  free : s.store.free = true → s'.store.free = true

/-- The arms of the controller cannot be seen. -/
theorem unchanged_controller {c : Controller} (h : c.config = s.controller.config) :
    Unchanged s { s with controller := c } := ⟨fun _ => rfl, h, rfl, id⟩

/-- While the section is held, nothing is added, and the service is the same. -/
theorem add_of_not_free (hfree : s.store.free = false) (fresh : PrivateKey) (name : String)
    (options : AddOptions) : ∃ e, s.add fresh name options = (.error e, s) := by
  rw [add, begin, Store.begin_update_of_not_free hfree]
  exact ⟨_, rfl⟩

/-- While the section is held, nothing is removed, and the service is the same. -/
theorem remove_of_not_free (hfree : s.store.free = false) (name : String) :
    ∃ e, s.remove name = (.error e, s) := by
  rw [remove, begin, Store.begin_update_of_not_free hfree]
  exact ⟨_, rfl⟩

/-- A failed addition changes nothing but the arms of the controller: the record that was written is
taken out again. -/
theorem of_add_eq_error (hsound : s.store.committed.Sound) {fresh : PrivateKey}
    {options : AddOptions} {e : ServiceError} (h : s.add fresh name options = (.error e, s')) :
    ∃ c, c.config = s.controller.config ∧ s' = { s with controller := c } := by
  cases hfree : s.store.free with
  | false =>
    obtain ⟨e', hadd⟩ := add_of_not_free hfree fresh name options
    cases hadd.symm.trans h
    exact ⟨s.controller, rfl, rfl⟩
  | true =>
    have houtcome := add_outcome hsound hfree fresh name options
    rw [h] at houtcome
    cases houtcome with
    | refused => exact ⟨s.controller, rfl, rfl⟩
    | undone _ c hc => exact ⟨c, hc, rfl⟩

/-- A failed removal changes nothing but the arms of the controller, if every row of a peer was
written from one: then the record that is put back has the bytes of the row. -/
theorem of_remove_eq_error (hsound : s.store.committed.Sound) (hwritten : s.store.peerRows.Written)
    {e : ServiceError} (h : s.remove name = (.error e, s')) :
    ∃ c, c.config = s.controller.config ∧ s' = { s with controller := c } := by
  cases hfree : s.store.free with
  | false =>
    obtain ⟨e', hremove⟩ := remove_of_not_free hfree name
    cases hremove.symm.trans h
    exact ⟨s.controller, rfl, rfl⟩
  | true =>
    have houtcome := remove_outcome hsound hfree name
    rw [h] at houtcome
    cases houtcome with
    | refused => exact ⟨s.controller, rfl, rfl⟩
    | undone _ c p value hname hget hp hc =>
      -- the record that is written anew has the bytes of the row that was erased
      rw [hwritten.encode_eq hget hp, Rows.insert_of_get? hget,
        Store.withPeers_peerRows hsound]
      exact ⟨c, hc, rfl⟩

/-- A call that fails changes nothing: neither the rows of any bucket, nor the configuration at the
controller, nor the next automatic address, and it leaves the section. -/
theorem unchanged_of_error (hsound : s.store.committed.Sound)
    (hwritten : s.store.peerRows.Written) :
    (∀ fresh name options e s', s.add fresh name options = (.error e, s') → Unchanged s s') ∧
      ∀ name e s', s.remove name = (.error e, s') → Unchanged s s' := by
  constructor
  · intro fresh name options e s' h
    obtain ⟨c, hc, rfl⟩ := of_add_eq_error hsound h
    exact unchanged_controller hc
  · intro name e s' h
    obtain ⟨c, hc, rfl⟩ := of_remove_eq_error hsound hwritten h
    exact unchanged_controller hc

/-- A service with one client, whose controller is about to fail at both of its steps. -/
def faltering : Service :=
  let net := Net.host (.ofNat .v4 0x0A090802)
  let p : PeerIdentity :=
    ⟨"alice", net, ⟨.ofNat 1⟩, ⟨.ofNat 2⟩, [.ofNat .v4 0x08080808], [net], some 25⟩
  let settings : ServiceSettings :=
    ⟨"vpn.example", (Net.host (.ofNat .v4 0x0A090801)), 51820, "eth0", [], [], none⟩
  let config := interfaceConfig settings "wg0" ⟨⟨.ofNat 3⟩⟩ [p]
  { settings := settings
    publicKey := ⟨.ofNat 4⟩
    cursor := settings.address
    store :=
      { committed :=
          Database.empty.withRows .peers (Rows.empty.insert (Peers.key p.name) p.encode) }
    controller := ⟨"wg0.conf", "wg0", some config, [.apply, .remove]⟩ }

/-- Both steps fail after the commit, and nothing has changed. -/
theorem unchanged_faltering :
    (faltering.add ⟨.ofNat 5⟩ "bob" { address := some (Net.host (.ofNat .v4 0x0A090803)) }).1 =
        .error (.toolFailed "ApplyStaged" Rehearsal.injected) ∧
      (faltering.remove "alice").1 = .error (.toolFailed "RemovePeer" Rehearsal.injected) ∧
      Unchanged faltering
        (faltering.add ⟨.ofNat 5⟩ "bob" { address := some (Net.host (.ofNat .v4 0x0A090803)) }).2 ∧
      Unchanged faltering (faltering.remove "alice").2 := by
  have hsound : faltering.store.committed.Sound := Database.sound_empty.withRows .peers _
  have hwritten : faltering.store.peerRows.Written := by
    intro r hr
    rcases mem_insertRow hr with h | h
    · exact ⟨_, h⟩
    · cases h
  have hadd : (faltering.add ⟨.ofNat 5⟩ "bob"
      { address := some (Net.host (.ofNat .v4 0x0A090803)) }).1 =
        .error (.toolFailed "ApplyStaged" Rehearsal.injected) := by decide +kernel
  have hremove : (faltering.remove "alice").1 =
      .error (.toolFailed "RemovePeer" Rehearsal.injected) := by decide +kernel
  have hunchanged := unchanged_of_error hsound hwritten
  exact ⟨hadd, hremove, hunchanged.1 _ _ _ _ _ (Prod.ext hadd rfl),
    hunchanged.2 _ _ _ (Prod.ext hremove rfl)⟩

end WireKeeper.Service
