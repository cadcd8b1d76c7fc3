import Mathlib.Data.List.Nodup
import WireKeeper.Interface.Controller
import WireKeeper.Proofs.Host.Disk

/-! # The controller and its file

A step at the controller is done unless it is armed, and changes the peers of its configuration at
most. A file that is written holds the text of the whole configuration.

* `Controller.apply_eq`, `Controller.remove_eq`: what the two steps do;
* `Controller.SameFrame`: what they keep;
* `ConfigFile.of_stage_eq_ok`, `ConfigFile.of_stage_eq_error`: the disk after a text was staged;
* `ConfigFile.node?_of_write`: the file after it was written. -/

namespace WireKeeper

/-! ## Peers of a configuration -/

section Peers

variable {α : Type} {key : α → String} {l : List α} {name : String}

/-- Removing the first item with a key removes every item with it, when all keys are different: what
is left is the list without that key, in its order. -/
theorem eraseP_eq_filter (h : (l.map key).Nodup) (name : String) :
    l.eraseP (fun x => key x == name) = l.filter fun x => key x ≠ name := by
  induction l with
  | nil => rfl
  | cons x xs ih =>
    rw [List.map_cons, List.nodup_cons] at h
    obtain ⟨hx, hxs⟩ := h
    by_cases hname : key x = name
    · -- once the key is found, it stands nowhere behind
      rw [List.eraseP_cons_of_pos (p := fun x => key x == name) (beq_iff_eq.2 hname),
        List.filter_cons_of_neg (by simpa using hname), List.filter_eq_self.2]
      intro a ha
      refine decide_eq_true fun hkey => hx ?_
      exact List.mem_map.2 ⟨a, ha, hkey.trans hname.symm⟩
    · rw [List.eraseP_cons_of_neg (p := fun x => key x == name) fun h => hname (beq_iff_eq.1 h),
        List.filter_cons_of_pos (by simpa using hname), ih hxs]

/-- The first item with a key is the one that is known to have it, when all keys are different:
`front ++ a :: behind` without the key of `a` is `front ++ behind`. -/
theorem eraseP_of_split {a : α} {front behind : List α}
    (h : ((front ++ a :: behind).map key).Nodup) :
    (front ++ a :: behind).eraseP (fun x => key x == key a) = front ++ behind := by
  rw [List.map_append, List.map_cons, List.nodup_append] at h
  have hfront : ∀ x ∈ front, ¬(key x == key a) = true := fun x hx heq =>
    h.2.2 _ (List.mem_map_of_mem hx) _ List.mem_cons_self (beq_iff_eq.1 heq)
  rw [List.eraseP_append_right _ hfront,
    List.eraseP_cons_of_pos (p := fun x => key x == key a) (beq_self_eq_true _)]

/-- What is left are the items with another key, when all keys are different. -/
theorem mem_eraseP_of_nodup (h : (l.map key).Nodup) {a : α} :
    a ∈ l.eraseP (fun x => key x == name) ↔ a ∈ l ∧ key a ≠ name := by
  rw [eraseP_eq_filter h, List.mem_filter, decide_eq_true_iff]

namespace Config.Server

variable {config : Config.Server} {peer : Config.ServerPeer}

/-- A name is found if and only if a peer has it: `config.find? name` shows one for the names of the
peers. -/
theorem isSome_find?_iff :
    (config.find? name).isSome = true ↔ name ∈ config.peers.map ServerPeer.name := by
  rw [find?, List.find?_isSome, List.mem_map]
  exact exists_congr fun q => and_congr_right fun _ => beq_iff_eq

/-- A name is not found if and only if no peer has it. -/
theorem find?_eq_none_iff :
    config.find? name = none ↔ name ∉ config.peers.map ServerPeer.name := by
  rw [← isSome_find?_iff, Bool.not_eq_true, Option.isSome_eq_false_iff, Option.isNone_iff_eq_none]

/-- The names stay different when a peer with another name is added at the end. -/
theorem nodup_names_concat {peers : List ServerPeer} (hnodup : (peers.map ServerPeer.name).Nodup)
    (hnew : peer.name ∉ peers.map ServerPeer.name) :
    ((peers ++ [peer]).map ServerPeer.name).Nodup := by
  rw [List.map_append, List.map_singleton, ← List.concat_eq_append]
  exact hnodup.concat hnew

end Config.Server

end Peers

namespace Controller

variable {c c' c'' : Controller} {config : Config.Server} {peer : Config.ServerPeer} {name : String}

/-! ## Steps -/

/-- The controller after an arm has made a step fail: the step is armed no more, and the
configuration is the same. -/
def disarm (c : Controller) (step : ArmedStep) : Controller :=
  { c with armed := c.armed.filter (· ≠ step) }

/-- An armed step fails and is armed no more; a step that is not armed is not stopped. -/
theorem fire_eq (c : Controller) (step : ArmedStep) :
    c.fire step =
      if step ∈ c.armed then (.error (.toolFailed step.shown Rehearsal.injected), c.disarm step)
      else (.ok (), c) := by
  rw [fire]
  by_cases h : step ∈ c.armed
  · rw [if_pos h, if_pos (List.contains_iff_mem.2 h)]
    rfl
  · rw [if_neg h, if_neg fun hc => h (List.contains_iff_mem.1 hc)]

/-- A controller shows the configuration it holds, and so it holds one if it shows one. -/
theorem of_snapshot_eq_ok {config : Config.Server} (h : c.snapshot = .ok config) :
    c.config = some config := by
  rw [snapshot] at h
  split at h
  · next heq => rw [heq, Except.ok.inj h]
  · cases h

/-- The peers of a loaded configuration are those of the controller. -/
theorem peers_eq {config : Config.Server} (h : c.config = some config) :
    c.peers = config.peers := by
  rw [peers, h]

/-- The peers are those of the configuration, so two controllers with one configuration have the
same. -/
theorem peers_congr (h : c'.config = c.config) : c'.peers = c.peers := by rw [peers, peers, h]

/-- Whether a name is there is whether it is found in the configuration. -/
theorem has_eq (hconfig : c.config = some config) (name : String) :
    c.has name = .ok (config.find? name).isSome := by
  rw [has, snapshot, hconfig]
  rfl

/-- What was staged could be added: it is the peer, and its name is not found in the
configuration. -/
theorem of_stage_eq_ok {staged : StagedPeer} (h : c.stage peer = .ok staged) :
    staged = ⟨peer⟩ ∧ ∃ config, c.config = some config ∧ config.find? peer.name = none := by
  rw [stage] at h
  obtain ⟨config, hsnapshot, h⟩ := bind_eq_ok.1 h
  have hconfig := of_snapshot_eq_ok hsnapshot
  cases hfind : config.find? peer.name with
  | none =>
    rw [hfind] at h
    cases h
    exact ⟨rfl, config, hconfig, hfind⟩
  | some q =>
    rw [hfind] at h
    cases h

/-- A peer that is not found can be staged, which changes nothing at the controller. -/
theorem stage_eq (hconfig : c.config = some config) (hfind : config.find? peer.name = none) :
    c.stage peer = .ok ⟨peer⟩ := by
  simp only [stage, snapshot, hconfig]
  show (if (config.find? peer.name).isSome then _ else _) = _
  rw [hfind]
  rfl

/-- A peer that is found cannot be staged, and the error names it. -/
theorem stage_eq_error (hconfig : c.config = some config)
    (hfind : (config.find? peer.name).isSome = true) :
    c.stage peer = .error (.peerExists peer.name) := by
  simp only [stage, snapshot, hconfig]
  show (if (config.find? peer.name).isSome then _ else _) = _
  rw [hfind]
  rfl

/-- A peer that is not found is added at the end of the peers. -/
theorem add_eq (hconfig : c.config = some config) (hfind : config.find? peer.name = none) :
    c.add peer = (.ok (), c.load { config with peers := config.peers ++ [peer] }) := by
  simp only [add, hconfig, hfind]
  rfl

/-- A peer that is found is not added, and the controller is the same. -/
theorem add_eq_error (hconfig : c.config = some config)
    (hfind : (config.find? peer.name).isSome = true) :
    c.add peer = (.error (.peerExists peer.name), c) := by
  simp only [add, hconfig, hfind]
  rfl

/-- A staged peer is added like any other, unless the step is armed; then it fails and is armed no
more. -/
theorem apply_eq_ite (staged : StagedPeer) :
    c.apply staged =
      if .apply ∈ c.armed then
        (.error (.toolFailed ArmedStep.apply.shown Rehearsal.injected), c.disarm .apply)
      else c.add staged.peer := by
  rw [apply, fire_eq]
  by_cases h : .apply ∈ c.armed
  · rw [if_pos h, if_pos h]
  · rw [if_neg h, if_neg h]

/-- A staged peer that is not found is added, unless the step is armed. The two cases are all that
can happen to it. -/
theorem apply_eq (hconfig : c.config = some config) (hfind : config.find? peer.name = none) :
    c.apply ⟨peer⟩ =
      if .apply ∈ c.armed then
        (.error (.toolFailed ArmedStep.apply.shown Rehearsal.injected), c.disarm .apply)
      else (.ok (), c.load { config with peers := config.peers ++ [peer] }) := by
  rw [apply_eq_ite, add_eq hconfig hfind]

/-- The step of a staged peer that is not found is done, unless it is armed. -/
theorem apply_fst (hconfig : c.config = some config) (hfind : config.find? peer.name = none) :
    (c.apply ⟨peer⟩).1 =
      if c.armed.contains .apply then
        .error (.toolFailed ArmedStep.apply.shown Rehearsal.injected)
      else .ok () := by
  rw [apply_eq hconfig hfind]
  by_cases h : .apply ∈ c.armed
  · rw [if_pos h, if_pos (List.contains_iff_mem.2 h)]
  · rw [if_neg h, if_neg fun hc => h (List.contains_iff_mem.1 hc)]

/-- Whether a peer is found does not matter when removing is armed: it fails, and is armed
no more. -/
theorem remove_of_armed (h : .remove ∈ c.armed) (name : String) :
    c.remove name =
      (.error (.toolFailed ArmedStep.remove.shown Rehearsal.injected), c.disarm .remove) := by
  rw [remove, fire_eq, if_pos h]

/-- A peer that is found is removed, unless the step is armed. The others keep their order. -/
theorem remove_eq (hconfig : c.config = some config) (hfind : (config.find? name).isSome = true) :
    c.remove name =
      if .remove ∈ c.armed then
        (.error (.toolFailed ArmedStep.remove.shown Rehearsal.injected), c.disarm .remove)
      else
        (.ok (), c.load { config with peers := config.peers.eraseP fun p => p.name == name }) := by
  by_cases h : .remove ∈ c.armed
  · rw [if_pos h, remove_of_armed h]
  · rw [if_neg h, remove, fire_eq, if_neg h]
    simp only [hconfig, hfind]
    rfl

/-- A peer that is not found is not removed, and the step fails all the same if it is armed, with
the other error. -/
theorem remove_eq_error (hconfig : c.config = some config) (hfind : config.find? name = none) :
    c.remove name =
      if .remove ∈ c.armed then
        (.error (.toolFailed ArmedStep.remove.shown Rehearsal.injected), c.disarm .remove)
      else (.error (.peerNotFound name), c) := by
  by_cases h : .remove ∈ c.armed
  · rw [if_pos h, remove_of_armed h]
  · rw [if_neg h, remove, fire_eq, if_neg h]
    simp only [hconfig, hfind]
    rfl

/-- What was staged is added at the end, unless the step fails; then the configuration is
the same. -/
theorem apply_cases (hconfig : c.config = some config) (hfind : config.find? peer.name = none) :
    (∃ e c', c.apply ⟨peer⟩ = (.error e, c') ∧ c'.config = c.config) ∨
      c.apply ⟨peer⟩ = (.ok (), c.load { config with peers := config.peers ++ [peer] }) := by
  rw [apply_eq hconfig hfind]
  split
  · exact .inl ⟨_, _, rfl, rfl⟩
  · exact .inr rfl

/-- A peer that is there is removed, unless the step fails; then the configuration is the same. -/
theorem remove_cases (hconfig : c.config = some config)
    (hfind : (config.find? name).isSome = true) :
    (∃ e c', c.remove name = (.error e, c') ∧ c'.config = c.config) ∨
      c.remove name =
        (.ok (), c.load { config with peers := config.peers.eraseP fun p => p.name == name }) := by
  rw [remove_eq hconfig hfind]
  split
  · exact .inl ⟨_, _, rfl, rfl⟩
  · exact .inr rfl

/-! ## What steps keep -/

/-- Two controllers of one interface whose configurations differ in their peers at most. Every step
of a service keeps the **frame**. -/
structure SameFrame (c c' : Controller) : Prop where
  interface : c'.interface = c.interface
  config : c'.config.map Config.Server.interface = c.config.map Config.Server.interface

/-- A controller has its own frame. -/
theorem SameFrame.refl (c : Controller) : c.SameFrame c := ⟨rfl, rfl⟩

/-- A frame that is kept twice is kept. -/
theorem SameFrame.trans (h : c.SameFrame c') (h' : c'.SameFrame c'') : c.SameFrame c'' :=
  ⟨h'.interface.trans h.interface, h'.config.trans h.config⟩

/-- Other peers make no other frame: the interface of the configuration is the same. -/
theorem sameFrame_load {config : Config.Server} (h : c.config = some config)
    (peers : List Config.ServerPeer) : c.SameFrame (c.load { config with peers := peers }) :=
  ⟨rfl, by rw [h]; rfl⟩

/-- Arms are no part of the frame. -/
theorem sameFrame_fire (c : Controller) (step : ArmedStep) : c.SameFrame (c.fire step).2 := by
  rw [fire]
  split <;> exact ⟨rfl, rfl⟩

/-- Adding a peer keeps the frame, whether it is added or not. -/
theorem sameFrame_add (c : Controller) (peer : Config.ServerPeer) :
    c.SameFrame (c.add peer).2 := by
  rw [add]
  split
  · exact .refl c
  · next config hconfig =>
    split
    · exact .refl c
    · exact sameFrame_load hconfig _

/-- Adding what was staged keeps the frame, whatever came of it. -/
theorem sameFrame_apply (c : Controller) (staged : StagedPeer) :
    c.SameFrame (c.apply staged).2 := by
  have hfire := c.sameFrame_fire .apply
  rw [apply]
  split
  · next h => exact h ▸ hfire
  · next h =>
    rw [h] at hfire
    exact hfire.trans (sameFrame_add _ _)

/-- Removing a peer keeps the frame, whatever came of it. -/
theorem sameFrame_remove (c : Controller) (name : String) : c.SameFrame (c.remove name).2 := by
  have hfire := c.sameFrame_fire .remove
  rw [remove]
  split
  · next h => exact h ▸ hfire
  · next h =>
    rw [h] at hfire
    split
    · exact hfire
    · next config hconfig =>
      split
      · exact hfire.trans (sameFrame_load hconfig _)
      · exact hfire

/-- A step that was tried is armed no more, whether it was armed or not. -/
theorem armed_fire (c : Controller) (step : ArmedStep) :
    (c.fire step).2.armed = c.armed.filter (· ≠ step) := by
  rw [fire_eq]
  split
  · rfl
  · next h =>
    refine (List.filter_eq_self.2 fun other hother => decide_eq_true ?_).symm
    rintro rfl
    exact h hother

/-- Adding a peer without staging it leaves all arms as they are. -/
theorem armed_add (c : Controller) (peer : Config.ServerPeer) :
    (c.add peer).2.armed = c.armed := by
  rw [add]
  split
  · rfl
  · split <;> rfl

/-- The step is armed no more after it, whatever came of it; removing stays armed if it was. -/
theorem armed_apply (c : Controller) (staged : StagedPeer) :
    (c.apply staged).2.armed = c.armed.filter (· ≠ .apply) := by
  have hfire := c.armed_fire .apply
  rw [apply]
  split
  · next h => rw [← hfire, h]
  · next h => rw [armed_add, ← hfire, h]

/-- The step is armed no more after it, whatever came of it; adding stays armed if it was. -/
theorem armed_remove (c : Controller) (name : String) :
    (c.remove name).2.armed = c.armed.filter (· ≠ .remove) := by
  have hfire := c.armed_fire .remove
  rw [remove]
  split
  · next h => rw [← hfire, h]
  · next h =>
    rw [← hfire, h]
    split
    · rfl
    · split <;> rfl

end Controller

/-! ## The file -/

namespace ConfigFile

variable {c : Controller} {d d' : Disk}

/-- What is staged is a file of its own with the text, and with the mode of configuration files. -/
theorem node?_of_stage {text : String} {staged : Path} (h : stage c text d = (.ok staged, d')) :
    d'.node? staged = some (.file (Utf8.ofString text) mode) := by
  rw [stage] at h
  simp only at h
  split at h
  · cases h
  · split at h
    · obtain ⟨hstaged, hdisk⟩ := Prod.mk.inj h
      rw [← hdisk, ← Except.ok.inj hstaged]
      exact Disk.node?_put _ (by simp) _
    · cases h

/-- The name of a staged file is short, as the name of an interface has few bytes. -/
theorem size_of_isNamePart {s : String} (h : isNamePart s 17 = true) :
    ("." ++ s ++ "-.conf.tmp").utf8ByteSize ≤ 255 := by
  have hsize : s.utf8ByteSize + 17 ≤ 255 := by
    rw [isNamePart, Bool.and_eq_true, decide_eq_true_iff] at h
    exact h.2
  have hends : ".".utf8ByteSize = 1 ∧ "-.conf.tmp".utf8ByteSize = 10 := by decide
  simp only [String.utf8ByteSize_append]
  omega

/-- What is staged is found with the text, and no other file has changed: directories may have been
made for it, and nothing else. -/
theorem of_stage_eq_ok {text : String} {staged : Path} (h : stage c text d = (.ok staged, d'))
    (hshort : d.ShortNames) :
    d'.find staged = .ok (.file (Utf8.ofString text) mode) ∧ d'.ShortNames ∧
      d'.current = d.current ∧
      ∀ p ≠ staged, (d'.node? p).bind Node.bytes? = (d.node? p).bind Node.bytes? := by
  have hnode := node?_of_stage h
  rw [stage] at h
  simp only at h
  split at h
  · cases h
  · next d₁ hmake =>
    have hwidens := Disk.widens_createDirectories hmake
    obtain ⟨hcurrent, hleads, -⟩ := Disk.of_createDirectories hmake
    split at h
    · next hname =>
      obtain ⟨hstaged, hdisk⟩ := Prod.mk.inj h
      cases hstaged
      subst hdisk
      have hdirectory : d₁.node? (directory c d) = some .directory := by
        have hwhole := hleads (directory c d).length
        rw [List.take_length] at hwhole
        exact of_decide_eq_true hwhole
      -- the path of the new file is short: its directory is there already, and its name is known
      have hparts : ∀ part ∈ directory c d ++ ["." ++ c.interface ++ "-.conf.tmp"],
          part.utf8ByteSize ≤ 255 :=
        List.forall_mem_append.2 ⟨(hwidens.short hshort).of_node? hdirectory,
          List.forall_mem_singleton.2 (size_of_isNamePart hname)⟩
      exact ⟨(hleads.put_inside _ _).find_eq_ok hparts hnode, (hwidens.short hshort).put hparts _,
        hcurrent, fun p hp => by rw [Disk.node?_put_of_ne _ _ hp, hwidens.bytes]⟩
    · cases h

/-- When nothing can be staged, no file has changed, though directories may have been made. -/
theorem of_stage_eq_error {text : String} {e : DiskError} (h : stage c text d = (.error e, d')) :
    d.Widens d' ∧ d'.current = d.current := by
  rw [stage] at h
  simp only at h
  split at h
  · cases h
    exact ⟨.refl d, rfl⟩
  · next d₁ hmake =>
    split at h
    · cases h
    · cases h
      exact ⟨Disk.widens_createDirectories hmake, (Disk.of_createDirectories hmake).1⟩

/-- A file that was written holds the text of the configuration, and is found where the controller
says. -/
theorem node?_of_write (h : write c d = (.ok (), d')) : ∃ config, c.config = some config ∧
    d'.node? (d'.resolve c.configPath) =
      some (.file (Utf8.ofString (toString config)) mode) := by
  rw [write] at h
  split at h
  · cases h
  · next text hrender =>
    obtain ⟨config, hsnapshot, hpure⟩ := bind_eq_ok.1 hrender
    have htext : toString config = text := Except.ok.inj hpure
    subst htext
    refine ⟨config, Controller.of_snapshot_eq_ok hsnapshot, ?_⟩
    split at h
    · cases h
    · next staged d₁ hstage =>
      split at h
      · cases h
      · next d₂ hpersist =>
        cases h
        -- the file is moved to where the disk finds it afterwards
        have hresolve : d'.resolve c.configPath = d₁.resolve c.configPath := by
          rw [Disk.resolve, Disk.resolve, Disk.current_of_rename hpersist]
        rw [hresolve, Disk.node?_of_rename hpersist]
        exact node?_of_stage hstage

end ConfigFile

end WireKeeper
