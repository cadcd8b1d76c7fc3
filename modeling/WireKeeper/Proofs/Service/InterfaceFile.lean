import WireKeeper.Proofs.Config.Server
import WireKeeper.Proofs.Service.Runs
import WireKeeper.Proofs.Service.Start
import WireKeeper.Proofs.Service.Transitions

/-! # Names in the interface file

The names of the clients are written into the interface file as they are, each as the comment of its
section. A line feed ends the comment, and what follows it in the name is read as lines of the file:
a name can add entries and sections to the file or spoil it. The names that cannot are the tame
ones, whose lines after the first are all comments or blank. Whatever else is in the file was put
there when the service was started, and stays.

* `of_mem_commands_forwarding`: the commands of the interface are trimmed lines;
* `Based`: the interface that a service was started with, which every event keeps;
* `faithful_file_iff_tame`: the file of a running service is faithful to the configuration at its
  controller exactly when every name is tame. -/

namespace WireKeeper

/-! ## The commands of the interface -/

namespace Config.Server

/-- A rule is a trimmed line, if the names in it are lines: the others of its words are fixed. -/
theorem of_mem_rules {flag device wire command : String} {network : Net} {port : UInt16}
    (hflag : '\n' ∉ flag.toList) (hdevice : '\n' ∉ device.toList) (hwire : '\n' ∉ wire.toList)
    (h : command ∈ rules flag network port device wire) :
    '\n' ∉ command.toList ∧ Text.Trimmed command.toList := by
  have hnetwork : '\n' ∉ (toString network).toList := by
    show '\n' ∉ (String.ofList network.write).toList
    rw [String.toList_ofList]
    exact (isValue_net network).2
  have hport : '\n' ∉ (toString port).toList := by
    show '\n' ∉ (String.ofList (Text.decimal port.toNat)).toList
    rw [String.toList_ofList]
    exact (isValue_decimal port.toNat).2
  have hself : ∀ s : String, toString s = s := fun _ => rfl
  simp only [rules, List.mem_cons, List.not_mem_nil, or_false] at h
  -- the names stand between the words of a rule, never at its ends
  rcases h with rfl | rfl | rfl | rfl
  all_goals
    simp only [String.toList_append, hself]
    constructor
    · simp only [List.mem_append, not_or]
      simp only [hflag, hdevice, hwire, hnetwork, hport, not_false_eq_true]
      decide
    · refine ⟨?_, Text.isBlank_of_getLast?_append (by decide)⟩
      simp only [List.append_assoc]
      exact Text.isBlank_of_head?_append (by decide)

/-- The commands that forward traffic are trimmed lines, if the names in them are lines. -/
theorem of_mem_commands_forwarding {key : PrivateKey} {address : Net} {port : Option UInt16}
    {device wire command : String} (hdevice : '\n' ∉ device.toList) (hwire : '\n' ∉ wire.toList)
    (h : command ∈ commands (forwarding key address port device wire).interface) :
    '\n' ∉ command.toList ∧ Text.Trimmed command.toList := by
  rcases List.mem_append.1 h with h | h
  · exact of_mem_rules (by decide) hdevice hwire h
  · exact of_mem_rules (by decide) hdevice hwire h

end Config.Server

namespace Service

variable {s s' : Service} {settings : ServiceSettings} {wire : String}

/-! ## What stays at the controller -/

/-- An addition keeps all but the peers at the controller, whatever becomes of it. -/
theorem sameFrame_add (s : Service) (fresh : PrivateKey) (name : String) (options : AddOptions) :
    s.controller.SameFrame (s.add fresh name options).2.controller := by
  rw [add]
  split
  · exact .refl _
  · split
    · exact .refl _
    · split
      · exact .refl _
      · next staged _ =>
        have happly := s.controller.sameFrame_apply staged
        simp only
        split
        · next h =>
          rw [h] at happly
          exact happly
        · next h =>
          rw [h] at happly
          exact happly

/-- A removal keeps all but the peers at the controller, whatever becomes of it. -/
theorem sameFrame_remove (s : Service) (name : String) :
    s.controller.SameFrame (s.remove name).2.controller := by
  rw [remove]
  split
  · exact .refl _
  · split
    · exact .refl _
    · split
      · exact .refl _
      · have hremove := s.controller.sameFrame_remove name
        simp only
        split
        · next h =>
          rw [h] at hremove
          exact hremove
        · next h =>
          rw [h] at hremove
          exact hremove

/-- A call keeps all but the peers at the controller, whatever the call is. -/
theorem sameFrame_after (s : Service) (c : Call) :
    s.controller.SameFrame (s.after c).controller := by
  cases c with
  | add fresh name options => exact s.sameFrame_add fresh name options
  | remove name => exact s.sameFrame_remove name
  | get name => exact .refl _
  | infos => exact .refl _
  | arm step => exact ⟨rfl, rfl⟩

/-- A service over the interface `wire` is **based** on settings if its controller holds the
interface of these settings, with some key. -/
structure Based (settings : ServiceSettings) (wire : String) (s : Service) : Prop where
  settings_eq : s.settings = settings
  wire_eq : s.controller.interface = wire
  interface_eq : ∃ key, s.controller.config.map Config.Server.interface =
    some (Config.Server.forwarding key settings.address (some settings.port) settings.device
      wire).interface

/-- A service is based on the settings it was started with. -/
theorem based_of_start {fresh : PrivateKey} {store : Store} {controller : Controller}
    (h : start settings fresh store controller = .ok s) :
    s.Based settings controller.interface := by
  obtain ⟨i, peers, hstarted⟩ := of_start_eq_ok h
  refine ⟨hstarted.settings_eq, ?_, i.privateKey, ?_⟩
  · rw [hstarted.controller_eq]
    rfl
  · rw [hstarted.controller_eq]
    rfl

/-- An event leads to a service on the same base, a restart included. -/
theorem Based.step (h : s.Based settings wire) {e : Event} (hstep : s.step e = .ok s') :
    s'.Based settings wire := by
  cases e with
  | restart fresh =>
    have hstart := based_of_start hstep
    rwa [h.settings_eq, h.wire_eq] at hstart
  | call c =>
    cases hstep
    have hframe := s.sameFrame_after c
    obtain ⟨key, hinterface⟩ := h.interface_eq
    exact ⟨(s.after_keeps c).settings.trans h.settings_eq, hframe.interface.trans h.wire_eq, key,
      hframe.config.trans hinterface⟩

/-- A run leads to a service on the same base. The induction is on the events. -/
theorem Based.run (h : s.Based settings wire) {events : List Event}
    (hrun : s.run events = .ok s') : s'.Based settings wire := by
  induction events generalizing s with
  | nil =>
    cases hrun
    exact h
  | cons e es ih =>
    rw [Service.run] at hrun
    split at hrun
    · next hstep => exact ih (h.step hstep) hrun
    · cases hrun

/-! ## The file -/

/-- The interface at the controller has no name, and its commands are trimmed lines if the names of
the interface and of the device are lines. -/
theorem Based.commands (h : s.Based settings wire) (hdevice : '\n' ∉ settings.device.toList)
    (hwire : '\n' ∉ wire.toList) : ∃ config, s.controller.config = some config ∧
      config.interface.name = none ∧ ∀ command ∈ Config.Server.commands config.interface,
        '\n' ∉ command.toList ∧ Text.Trimmed command.toList := by
  obtain ⟨key, hinterface⟩ := h.interface_eq
  obtain ⟨config, hconfig, hframe⟩ := Option.map_eq_some_iff.1 hinterface
  refine ⟨config, hconfig, congrArg Config.ServerInterface.name hframe, fun command hcommand => ?_⟩
  rw [hframe] at hcommand
  exact Config.Server.of_mem_commands_forwarding hdevice hwire hcommand

/-- The configuration of a service whose names of the interface and of the device are lines has a
file that is faithful exactly when the names of its peers are tame. -/
theorem Based.faithful_iff (h : s.Based settings wire) (hdevice : '\n' ∉ settings.device.toList)
    (hwire : '\n' ∉ wire.toList) : ∃ config, s.controller.config = some config ∧
      (config.Faithful (toString config) ↔
        ∀ p ∈ config.peers, Config.Section.Tame (some p.name.toList)) := by
  obtain ⟨config, hconfig, hname, hcommands⟩ := h.commands hdevice hwire
  refine ⟨config, hconfig, ?_⟩
  have hnone : Config.Section.Tame none := by decide
  rw [Config.Server.faithful_iff hcommands, Config.Server.comment_of_mem_sections, hname]
  exact and_iff_right hnone

/-- A file that was written was written for the controller. -/
theorem write_of_writeFile {σ : Type} {h h' : Host σ} (hwrite : s.writeFile h = (.ok (), h')) :
    ConfigFile.write s.controller h.disk = (.ok (), h'.disk) := by
  rw [writeFile] at hwrite
  cases hpair : ConfigFile.write s.controller h.disk with
  | mk result disk =>
    rw [hpair] at hwrite
    obtain ⟨hresult, rfl⟩ := Prod.mk.inj hwrite
    cases result with
    | error e => cases hresult
    | ok u => rfl

/-- Whatever clients are added and removed after a service was started, the file that is written is
the text of the configuration at its controller. It is faithful to it if and only if no name of a
client has a line, behind a line feed, that is neither a comment nor blank. -/
theorem faithful_file_iff_tame {fresh : PrivateKey} {store : Store} {controller : Controller}
    {events : List Event} (hdevice : '\n' ∉ settings.device.toList)
    (hwire : '\n' ∉ controller.interface.toList)
    (hstart : start settings fresh store controller = .ok s) (hrun : s.run events = .ok s') :
    ∃ config, s'.controller.config = some config ∧
      (∀ {σ : Type} (h h' : Host σ), s'.writeFile h = (.ok (), h') →
        h'.disk.node? (h'.disk.resolve s'.controller.configPath) =
          some (.file (Utf8.ofString (toString config)) ConfigFile.mode)) ∧
      (config.Faithful (toString config) ↔
        ∀ p ∈ config.peers, Config.Section.Tame (some p.name.toList)) := by
  have hbased := (based_of_start hstart).run hrun
  obtain ⟨config, hconfig, hfaithful⟩ := hbased.faithful_iff hdevice hwire
  refine ⟨config, hconfig, fun h h' hwrite => ?_, hfaithful⟩
  obtain ⟨config', hconfig', hnode⟩ := ConfigFile.node?_of_write (write_of_writeFile hwrite)
  cases hconfig.symm.trans hconfig'
  exact hnode

/-- Two clients are added, the name of the second with a remark on a line of its own. -/
def remarkEvents : List Event :=
  [.call (.add ⟨.ofNat 2⟩ "alice" {}), .call (.add ⟨.ofNat 3⟩ "bob\n# the second" {})]

/-- The file is faithful, since the second line of the name is a comment. -/
theorem faithful_remark : ∃ s s' config, startSample = .ok s ∧ s.run remarkEvents = .ok s' ∧
    s'.controller.config = some config ∧ config.Faithful (toString config) := by
  have hnames : (startSample >>= fun s => s.run remarkEvents).toOption.map
      (fun s => s.controller.peers.map Config.ServerPeer.name) =
        some ["alice", "bob\n# the second"] := by
    decide +kernel
  obtain ⟨s', hboth, hseen⟩ := exists_of_toOption_map hnames
  obtain ⟨s, hs, hrun⟩ := bind_eq_ok.1 hboth
  obtain ⟨config, hconfig, -, hfaithful⟩ :=
    faithful_file_iff_tame (by decide) (by decide) hs hrun
  refine ⟨s, s', config, hs, hrun, hconfig, hfaithful.2 ?_⟩
  have htame : ∀ name ∈ ["alice", "bob\n# the second"],
      Config.Section.Tame (some name.toList) := by decide
  rw [← hseen, Controller.peers_eq hconfig] at htame
  exact fun p hp => htame p.name (List.mem_map_of_mem hp)

/-- A client is added whose name has a second line that is a command. -/
def forgingEvents : List Event := [.call (.add ⟨.ofNat 2⟩ "alice\nPostUp = reboot" {})]

/-- The file is read with the command, and so it is not faithful: reading it gives one command more
than the controller has. -/
theorem not_faithful_forging : ∃ s s' config, startSample = .ok s ∧
    s.run forgingEvents = .ok s' ∧ s'.controller.config = some config ∧
      (∃ read, Config.Server.parse (toString config) = .ok read ∧
        read.interface.postUp = config.interface.postUp ++ ["reboot"]) ∧
      ¬config.Faithful (toString config) := by
  have hnames : (startSample >>= fun s => s.run forgingEvents).toOption.map
      (fun s => s.controller.peers.map Config.ServerPeer.name) =
        some ["alice\nPostUp = reboot"] := by
    decide +kernel
  obtain ⟨s', hboth, hseen⟩ := exists_of_toOption_map hnames
  obtain ⟨s, hs, hrun⟩ := bind_eq_ok.1 hboth
  obtain ⟨config, hconfig, hunnamed, hcommands⟩ :=
    ((based_of_start hs).run hrun).commands (by decide) (by decide)
  rw [Controller.peers_eq hconfig] at hseen
  obtain ⟨p, rest, hpeers, hname, hrest⟩ := List.map_eq_cons_iff.1 hseen
  have hforged : Config.Section.Forged (some p.name.toList)
      ("PostUp".toList, "reboot".toList) := by
    refine ⟨"alice".toList, "PostUp = reboot".toList, ?_, by decide, by decide, by decide⟩
    rw [hname]
    decide
  have hread : ∃ read, Config.Server.parse (toString config) = .ok read ∧
      read.interface.postUp = config.interface.postUp ++ ["reboot"] := by
    have hnone : Config.Section.Tame (config.interface.name.map String.toList) := by
      rw [hunnamed]
      decide
    obtain ⟨read, hparse, hup⟩ := Config.Server.parse_forged hpeers
      (fun command h => (hcommands command h).1) hnone hforged
      (by rw [List.map_eq_nil_iff.1 hrest]; simp)
    refine ⟨read, hparse, hup.trans ?_⟩
    rw [Config.map_rereadCommand_eq_self_iff.2 fun command h =>
      (hcommands command (List.mem_append_left _ h)).2]
    rfl
  refine ⟨s, s', config, hs, hrun, hconfig, hread, fun hfaithful => ?_⟩
  -- the commands would be the same
  obtain ⟨read, hparse, hup⟩ := hread
  obtain ⟨read', hparse', hunnamed⟩ := hfaithful.parse
  cases hparse.symm.trans hparse'
  have hsame : read.unnamed.interface.postUp = config.unnamed.interface.postUp := by
    rw [hunnamed]
  have hlength := congrArg List.length (hup.symm.trans hsame)
  simp [Config.Server.unnamed] at hlength

end Service

end WireKeeper
