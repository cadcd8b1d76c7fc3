import WireKeeper.Config.Server
import WireKeeper.Proofs.Config.Section
import WireKeeper.Proofs.Config.Value

/-! # The interface file of the server is read back

With tame names and commands that are lines, the file of a configuration is read as that
configuration, but for its names, each of which is read as a comment, and for blanks around a
command. So the file is read as the very configuration when its names and commands are left as they
are, and only then, since nothing that is read has a line feed.

* `sections_plain`: the sections of a configuration;
* `parse_write`: what a file is read as;
* `parse_forged`: a name that adds a command;
* `feedless_of_parse`: what is read has no line feeds;
* `parse_server_iff`: the configurations that are read back;
* `faithful_iff`: the files that are read as what was written, but for the names. -/

namespace WireKeeper.Config

open Text (trim Trimmed)

/-- What a command is read as: the command without blanks around it. -/
def rereadCommand (command : String) : String := String.ofList (trim command.toList)

/-- Exactly the trimmed commands are read as what they are, and a list of them if all of
them are. -/
theorem map_rereadCommand_eq_self_iff {commands : List String} :
    commands.map rereadCommand = commands ↔ ∀ c ∈ commands, Trimmed c.toList := by
  have hone : ∀ c : String, rereadCommand c = c ↔ Trimmed c.toList := by
    intro c
    rw [← Text.trim_eq_self_iff, rereadCommand, ← String.toList_inj, String.toList_ofList]
  induction commands with
  | nil => simp
  | cons c cs ih => simp [hone, ih]

namespace Server

variable {c : Server} {i : ServerInterface} {p : ServerPeer} {text : String}

/-! ## Sections of a configuration -/

/-- The commands of an interface, those that bring it up and those that take it down. -/
def commands (i : ServerInterface) : List String := i.postUp ++ i.postDown

/-- The entries of the interface: its address, a port if there is one, its key, and one entry for
each command. -/
theorem entries_interfaceSection (i : ServerInterface) : (interfaceSection i).entries =
    [("Address".toList, i.address.write)] ++
      i.listenPort.toList.map (fun port => ("ListenPort".toList, Text.decimal port.toNat)) ++
      [("PrivateKey".toList, i.privateKey.toBase64.toList)] ++
      i.postUp.map (fun c => ("PostUp".toList, c.toList)) ++
      i.postDown.map (fun c => ("PostDown".toList, c.toList)) := by
  obtain ⟨name, address, port, privateKey, postUp, postDown⟩ := i
  cases port with
  | none => rfl
  | some port => rfl

/-- The entries of a peer: its key and its nets. -/
theorem entries_peerSection (p : ServerPeer) : (peerSection p).entries =
    [("PublicKey".toList, p.publicKey.toBase64.toList),
      ("AllowedIPs".toList, (Net.formatAll p.allowedIPs ",").toList)] := rfl

/-- An entry of the interface has a key of a configuration file, and a value unless it is a command,
which may be any text. -/
theorem of_mem_interfaceSection {e : Entry} (h : e ∈ (interfaceSection i).entries) :
    Section.IsKey e.1 ∧ (IsValue e.2 ∨ ∃ c ∈ commands i, e.2 = c.toList) := by
  rw [entries_interfaceSection] at h
  simp only [List.mem_append, List.mem_singleton, List.mem_map] at h
  rcases h with (((rfl | ⟨port, -, rfl⟩) | rfl) | ⟨c, hc, rfl⟩) | ⟨c, hc, rfl⟩
  · exact ⟨show Section.IsKey "Address".toList by decide, .inl (isValue_net _)⟩
  · exact ⟨show Section.IsKey "ListenPort".toList by decide, .inl (isValue_decimal _)⟩
  · exact ⟨show Section.IsKey "PrivateKey".toList by decide, .inl (isValue_key _)⟩
  · have hkey : Section.IsKey "PostUp".toList := by decide
    exact ⟨hkey, .inr ⟨c, List.mem_append_left _ hc, rfl⟩⟩
  · have hkey : Section.IsKey "PostDown".toList := by decide
    exact ⟨hkey, .inr ⟨c, List.mem_append_right _ hc, rfl⟩⟩

/-- An entry of a peer has a key of a configuration file and a value, so it is read as it was
written. -/
theorem of_mem_peerSection {e : Entry} (h : e ∈ (peerSection p).entries) :
    Section.IsKey e.1 ∧ IsValue e.2 := by
  rw [entries_peerSection] at h
  simp only [List.mem_cons, List.not_mem_nil, or_false] at h
  rcases h with rfl | rfl
  · exact ⟨show Section.IsKey "PublicKey".toList by decide, isValue_key _⟩
  · exact ⟨show Section.IsKey "AllowedIPs".toList by decide, isValue_nets _⟩

/-- The sections of a configuration whose commands are lines are plain: all else in them is a line
already. -/
theorem sections_plain (h : ∀ command ∈ commands c.interface, '\n' ∉ command.toList) :
    ∀ s ∈ c.sections, s.Plain := by
  intro s hs
  rcases List.mem_cons.1 hs with rfl | hs
  · have htitle : '\n' ∉ "Interface".toList ∧ Trimmed "Interface".toList := by decide
    refine ⟨htitle.1, htitle.2, fun e he => (of_mem_interfaceSection he).1, fun e he => ?_⟩
    rcases (of_mem_interfaceSection he).2 with hvalue | ⟨command, hcommand, hvalue⟩
    · exact hvalue.2
    · exact hvalue ▸ h command hcommand
  · obtain ⟨p, -, rfl⟩ := List.mem_map.1 hs
    have htitle : '\n' ∉ "Peer".toList ∧ Trimmed "Peer".toList := by decide
    exact ⟨htitle.1, htitle.2, fun e he => (of_mem_peerSection he).1,
      fun e he => (of_mem_peerSection he).2.2⟩

/-- The comments of a configuration are its names: what holds of the comments of its sections holds
of the name of the interface, if any, and of those of the peers. -/
theorem comment_of_mem_sections {P : Option (List Char) → Prop} :
    (∀ s ∈ c.sections, P s.comment) ↔
      P (c.interface.name.map String.toList) ∧ ∀ p ∈ c.peers, P (some p.name.toList) := by
  simp only [sections, List.forall_mem_cons, List.forall_mem_map]
  rfl

/-! ## Reading the sections -/

/-- What the interface is read as: with its name as a comment is read, and its commands without
blanks around them. -/
def rereadInterface (i : ServerInterface) : ServerInterface :=
  { i with
    name := rereadName i.name
    postUp := i.postUp.map rereadCommand
    postDown := i.postDown.map rereadCommand }

/-- What a peer is read as: with its name as a comment is read, where no comment is the
empty name. -/
def rereadPeer (p : ServerPeer) : ServerPeer :=
  { p with name := (rereadName (some p.name)).getD "" }

/-- What a configuration with tame names is read as, the interface and each of the peers. -/
def reread (c : Server) : Server := ⟨rereadInterface c.interface, c.peers.map rereadPeer⟩

/-- The values of the keys of the interface: one address, one port or none, one key, and the
commands in their order. -/
theorem all_interfaceSection (i : ServerInterface) :
    (interfaceSection i).all "Address" = [i.address.write] ∧
      (interfaceSection i).all "ListenPort" =
        i.listenPort.toList.map (fun port => Text.decimal port.toNat) ∧
      (interfaceSection i).all "PrivateKey" = [i.privateKey.toBase64.toList] ∧
      (interfaceSection i).all "PostUp" = i.postUp.map String.toList ∧
      (interfaceSection i).all "PostDown" = i.postDown.map String.toList := by
  simp (disch := decide) only [Section.all_eq_values, entries_interfaceSection,
    Section.values_append, Section.values_cons_same, Section.values_cons_other,
    Section.values_map_same, Section.values_map_other, Section.values_nil, List.nil_append,
    List.append_nil, and_self]

/-- The values of the keys of a peer: one key and one list of nets. -/
theorem all_peerSection (p : ServerPeer) :
    (peerSection p).all "PublicKey" = [p.publicKey.toBase64.toList] ∧
      (peerSection p).all "AllowedIPs" = [(Net.formatAll p.allowedIPs ",").toList] := by
  simp (disch := decide) only [Section.all_eq_values, entries_peerSection,
    Section.values_cons_same, Section.values_cons_other, Section.values_nil, and_self]

/-- The values of the keys of the interface once they are reread. Those that are no commands have no
blanks around them, so they are the same. -/
theorem all_interfaceSection_reread (i : ServerInterface) :
    (interfaceSection i).reread.all "Address" = [i.address.write] ∧
      (interfaceSection i).reread.all "ListenPort" =
        i.listenPort.toList.map (fun port => Text.decimal port.toNat) ∧
      (interfaceSection i).reread.all "PrivateKey" = [i.privateKey.toBase64.toList] := by
  obtain ⟨haddress, hport, hprivate, -, -⟩ := all_interfaceSection i
  refine ⟨Section.all_reread_of_isValue haddress ?_, Section.all_reread_of_isValue hport ?_,
    Section.all_reread_of_isValue hprivate ?_⟩
  · exact List.forall_mem_singleton.2 (isValue_net _)
  · exact List.forall_mem_map.2 fun port _ => isValue_decimal _
  · exact List.forall_mem_singleton.2 (isValue_key _)

/-- What the interface is read as depends on the values of its keys, and on the comment for its
name. -/
theorem readInterface_of_all {s : Section} {i : ServerInterface}
    (haddress : s.all "Address" = [i.address.write])
    (hport : s.all "ListenPort" = i.listenPort.toList.map fun port => Text.decimal port.toNat)
    (hprivate : s.all "PrivateKey" = [i.privateKey.toBase64.toList]) :
    readInterface s = .ok
      { i with
        name := s.comment.map String.ofList
        postUp := (s.all "PostUp").map String.ofList
        postDown := (s.all "PostDown").map String.ofList } := by
  rw [readInterface, Section.require_of_all haddress, Section.readPort?_of_all hport,
    Section.require_of_all hprivate]
  simp only [bind, Except.bind, Section.readNet_write, Section.readPrivateKey_toBase64]
  rfl

/-- The section of the interface is read as the interface, `rereadInterface i`. -/
theorem readInterface_reread (i : ServerInterface) :
    readInterface (interfaceSection i).reread = .ok (rereadInterface i) := by
  obtain ⟨haddress, hport, hprivate⟩ := all_interfaceSection_reread i
  obtain ⟨-, -, -, hup, hdown⟩ := all_interfaceSection i
  rw [readInterface_of_all haddress hport hprivate]
  simp only [Section.all_reread, hup, hdown, List.map_map]
  rfl

/-- The values of the keys of a peer once they are reread are the same. -/
theorem all_peerSection_reread (p : ServerPeer) :
    (peerSection p).reread.all "PublicKey" = [p.publicKey.toBase64.toList] ∧
      (peerSection p).reread.all "AllowedIPs" = [(Net.formatAll p.allowedIPs ",").toList] := by
  obtain ⟨hkey, hips⟩ := all_peerSection p
  exact ⟨Section.all_reread_of_isValue hkey (List.forall_mem_singleton.2 (isValue_key _)),
    Section.all_reread_of_isValue hips (List.forall_mem_singleton.2 (isValue_nets _))⟩

/-- What a peer is read as depends on its comment and the values of its keys, in whatever entries
they stand. -/
theorem readPeer_of_all {s : Section} (hkey : s.all "PublicKey" = [p.publicKey.toBase64.toList])
    (hips : s.all "AllowedIPs" = [(Net.formatAll p.allowedIPs ",").toList]) :
    readPeer s = .ok { p with name := String.ofList (s.comment.getD []) } := by
  rw [readPeer, Section.require_of_all hkey, Section.require_of_all hips]
  simp only [bind, Except.bind, Section.readPublicKey_toBase64, Section.readNets_formatAll]
  rfl

/-- The sections of peers are read as the peers, one by one and in their order. -/
theorem mapM_readPeer_reread (ps : List ServerPeer) :
    ((ps.map peerSection).map Section.reread).mapM readPeer = .ok (ps.map rereadPeer) := by
  have hone : ∀ p, readPeer (Section.reread (peerSection p)) = .ok (rereadPeer p) := by
    intro p
    obtain ⟨hkey, hips⟩ := all_peerSection_reread p
    have hname : String.ofList ((peerSection p).reread.comment.getD []) =
        (rereadName (some p.name)).getD "" := by
      show String.ofList
          ((Section.lastRemark none (Section.remarks (some p.name.toList))).getD []) =
        ((Section.lastRemark none (Section.remarks (some p.name.toList))).map
          String.ofList).getD ""
      -- a peer without a name is written without a comment and read with the empty name
      cases Section.lastRemark none (Section.remarks (some p.name.toList)) with
      | none => rfl
      | some text => rfl
    rw [readPeer_of_all hkey hips, hname]
    rfl
  rw [List.map_map]
  exact mapM_map_pure hone ps

/-- A file of an interface and peers is read as these: the first section is the interface, and all
others are peers. -/
theorem ofSections_cons {s : Section} {ss : List Section} {ps : List ServerPeer}
    (hs : s.title = "Interface".toList) (hss : ∀ t ∈ ss, t.title = "Peer".toList)
    (hinterface : readInterface s = .ok i) (hpeers : ss.mapM readPeer = .ok ps) :
    ofSections (s :: ss) = .ok ⟨i, ps⟩ := by
  have htitles : "Interface".toList ≠ "Peer".toList := by decide
  rw [ofSections, Section.first_cons hs, Section.titled_cons_other (hs ▸ htitles),
    Section.titled_eq_self hss, hpeers]
  simp only [bind, Except.bind, hinterface]
  rfl

/-- The sections of a configuration are read as the configuration, `c.reread`. -/
theorem ofSections_reread (c : Server) :
    ofSections (c.sections.map Section.reread) = .ok c.reread := by
  have htitles : ∀ t ∈ (c.peers.map peerSection).map Section.reread, t.title = "Peer".toList := by
    simp only [List.forall_mem_map]
    exact fun p _ => rfl
  exact ofSections_cons (by rfl) htitles (readInterface_reread _) (mapM_readPeer_reread _)

/-- What the file of a configuration with tame names is read as: `parse (toString c) = .ok
c.reread`, if its commands are lines. -/
theorem parse_write (htame : ∀ s ∈ c.sections, Section.Tame s.comment)
    (hcommands : ∀ command ∈ commands c.interface, '\n' ∉ command.toList) :
    parse (toString c) = .ok c.reread := by
  have hread : Section.readAll (toString c).toList = .ok (c.sections.map Section.reread) := by
    show Section.readAll (String.ofList c.write).toList = _
    rw [String.toList_ofList]
    exact Section.readAll_writeAll (sections_plain hcommands) htame
  rw [parse]
  exact bind_eq_ok.2 ⟨_, hread, ofSections_reread c⟩

/-- A command in the name of the first peer is read as one of the interface: the file is read
without a fault, and has one command more than was written. -/
theorem parse_forged {ps : List ServerPeer} {command : List Char} (hpeers : c.peers = p :: ps)
    (hcommands : ∀ command ∈ commands c.interface, '\n' ∉ command.toList)
    (hname : Section.Tame (c.interface.name.map String.toList))
    (hforged : Section.Forged (some p.name.toList) ("PostUp".toList, command))
    (htame : ∀ q ∈ ps, Section.Tame (some q.name.toList)) :
    ∃ c', parse (toString c) = .ok c' ∧ c'.interface.postUp =
      c.interface.postUp.map rereadCommand ++ [String.ofList command] := by
  obtain ⟨i, peers⟩ := c
  subst hpeers
  have hplain := sections_plain hcommands
  obtain ⟨hi, hps⟩ := List.forall_mem_cons.1 hplain
  obtain ⟨hp, hps⟩ := List.forall_mem_cons.1 hps
  have hread : Section.readAll (toString (Server.mk i (p :: ps))).toList =
      .ok ((interfaceSection i).reread.extend [("PostUp".toList, command)] ::
        { (peerSection p).reread with comment := none } ::
          (ps.map peerSection).map Section.reread) := by
    show Section.readAll (String.ofList (Server.mk i (p :: ps)).write).toList = _
    rw [String.toList_ofList]
    exact Section.readAll_forged hi hname hp hforged hps (List.forall_mem_map.2 htame)
  obtain ⟨haddress, hport, hprivate⟩ := all_interfaceSection_reread i
  obtain ⟨-, -, -, hup, -⟩ := all_interfaceSection i
  -- the keys of the interface keep their values, but for the one of the command
  have hinterface := readInterface_of_all
    (s := (interfaceSection i).reread.extend [("PostUp".toList, command)]) (i := i)
    ((Section.all_extend_other (by decide) _).trans haddress)
    ((Section.all_extend_other (by decide) _).trans hport)
    ((Section.all_extend_other (by decide) _).trans hprivate)
  obtain ⟨hkey, hips⟩ := all_peerSection_reread p
  have hpeer := readPeer_of_all
    (s := { (peerSection p).reread with comment := none }) (p := p) hkey hips
  have hothers := mapM_ok_cons.2 ⟨_, _, hpeer, mapM_readPeer_reread ps, rfl⟩
  have htitles : ∀ t ∈ { (peerSection p).reread with comment := none } ::
      (ps.map peerSection).map Section.reread, t.title = "Peer".toList := by
    simp only [List.forall_mem_cons, List.forall_mem_map]
    exact ⟨rfl, fun q _ => rfl⟩
  refine ⟨_, bind_eq_ok.2 ⟨_, hread, ofSections_cons rfl htitles hinterface hothers⟩, ?_⟩
  simp only [Section.all_extend, Section.all_reread, hup, List.map_append, List.map_map]
  rfl

/-! ## The configurations that are read back -/

/-- A configuration whose names and commands are lines, as those of every configuration that was
read are. -/
structure Feedless (c : Server) : Prop where
  name : ∀ name ∈ c.interface.name, '\n' ∉ name.toList
  peer : ∀ p ∈ c.peers, '\n' ∉ p.name.toList
  command : ∀ command ∈ commands c.interface, '\n' ∉ command.toList

/-- What is read as the interface has no line feeds: its name is a comment and its commands are
values. -/
theorem feedless_of_readInterface {s : Section} (hs : s.Feedless) (h : readInterface s = .ok i) :
    (∀ name ∈ i.name, '\n' ∉ name.toList) ∧ ∀ command ∈ commands i, '\n' ∉ command.toList := by
  rw [readInterface] at h
  obtain ⟨_, _, h⟩ := bind_eq_ok.1 h
  obtain ⟨_, _, h⟩ := bind_eq_ok.1 h
  obtain ⟨_, _, h⟩ := bind_eq_ok.1 h
  obtain ⟨_, _, h⟩ := bind_eq_ok.1 h
  obtain ⟨_, _, h⟩ := bind_eq_ok.1 h
  cases h
  constructor
  · intro name hname
    obtain ⟨text, htext, rfl⟩ := Option.map_eq_some_iff.1 hname
    rw [String.toList_ofList]
    exact hs.comment text htext
  · intro command hcommand
    obtain ⟨key, value, hvalue, rfl⟩ :
        ∃ key, ∃ value ∈ s.all key, String.ofList value = command := by
      -- every command is a value of one of the two keys
      rcases List.mem_append.1 hcommand with hcommand | hcommand
      · exact ⟨_, List.mem_map.1 hcommand⟩
      · exact ⟨_, List.mem_map.1 hcommand⟩
    rw [String.toList_ofList]
    exact hs.not_mem_of_mem_all hvalue

/-- What is read as a peer has no line feeds: its name is a comment or empty. -/
theorem feedless_of_readPeer {s : Section} (hs : s.Feedless) (h : readPeer s = .ok p) :
    '\n' ∉ p.name.toList := by
  rw [readPeer] at h
  obtain ⟨_, _, h⟩ := bind_eq_ok.1 h
  obtain ⟨_, _, h⟩ := bind_eq_ok.1 h
  obtain ⟨_, _, h⟩ := bind_eq_ok.1 h
  obtain ⟨_, _, h⟩ := bind_eq_ok.1 h
  cases h
  rw [String.toList_ofList]
  cases hcomment : s.comment with
  | none => exact List.not_mem_nil
  | some text => exact hs.comment text hcomment

/-- No configuration that is read has a line feed in a name or a command, as it was read line by
line. -/
theorem feedless_of_parse (h : parse text = .ok c) : c.Feedless := by
  rw [parse] at h
  obtain ⟨ss, hread, h⟩ := bind_eq_ok.1 h
  have hfeedless := Section.feedless_of_readAll hread
  rw [ofSections] at h
  obtain ⟨s, hfirst, h⟩ := bind_eq_ok.1 h
  obtain ⟨i, hinterface, h⟩ := bind_eq_ok.1 h
  obtain ⟨ps, hpeers, h⟩ := bind_eq_ok.1 h
  cases h
  obtain ⟨hname, hcommand⟩ :=
    feedless_of_readInterface (hfeedless s (Section.mem_of_first hfirst)) hinterface
  refine ⟨hname, fun p hp => ?_, hcommand⟩
  obtain ⟨s', hs', hpeer⟩ := (mem_of_mapM_ok hpeers).1 hp
  exact feedless_of_readPeer (hfeedless s' (List.mem_filter.1 hs').1) hpeer

/-- The names of one line are tame: they stand in comments that end with their line. -/
theorem Feedless.tame (h : c.Feedless) : ∀ s ∈ c.sections, Section.Tame s.comment := by
  refine comment_of_mem_sections.2 ⟨Section.tame_of_not_mem fun text htext => ?_, fun p hp => ?_⟩
  · obtain ⟨name, hname, rfl⟩ := Option.map_eq_some_iff.1 htext
    exact h.name name hname
  · refine Section.tame_of_not_mem fun text htext => ?_
    cases htext
    exact h.peer p hp

/-- Exactly the peers with clean names, or none, are read as what they are. -/
theorem map_rereadPeer_eq_self_iff {ps : List ServerPeer} (h : ∀ p ∈ ps, '\n' ∉ p.name.toList) :
    ps.map rereadPeer = ps ↔ ∀ p ∈ ps, p.name = "" ∨ Clean p.name.toList := by
  induction ps with
  | nil => simp
  | cons p ps ih =>
    obtain ⟨hp, hps⟩ := List.forall_mem_cons.1 h
    have hone : rereadPeer p = p ↔ (rereadName (some p.name)).getD "" = p.name := by
      obtain ⟨name, key, ips⟩ := p
      simp [rereadPeer]
    rw [List.map_cons, List.cons.injEq, List.forall_mem_cons, hone,
      rereadName_getD_eq_self_iff hp, ih hps]

/-- Whether a configuration is left as it is when it is read back is decided by its names and its
commands. An empty name of the interface is read as no name, which is another one. -/
theorem reread_eq_self_iff (h : c.Feedless) : c.reread = c ↔
    (∀ name ∈ c.interface.name, name ≠ "" ∧ Clean name.toList) ∧
      (∀ p ∈ c.peers, p.name = "" ∨ Clean p.name.toList) ∧
      ∀ command ∈ commands c.interface, Trimmed command.toList := by
  obtain ⟨i, peers⟩ := c
  have hname : rereadName i.name = i.name ↔ _ := rereadName_eq_self_iff h.name
  have hpeers : peers.map rereadPeer = peers ↔ _ := map_rereadPeer_eq_self_iff h.peer
  have hinterface : rereadInterface i = i ↔ rereadName i.name = i.name ∧
      i.postUp.map rereadCommand = i.postUp ∧ i.postDown.map rereadCommand = i.postDown := by
    obtain ⟨name, address, port, key, postUp, postDown⟩ := i
    simp [rereadInterface]
  simp only [reread, Server.mk.injEq, hinterface, hname, hpeers, map_rereadCommand_eq_self_iff,
    commands, List.forall_mem_append]
  constructor
  · rintro ⟨⟨hname, hcommands⟩, hpeers⟩
    exact ⟨hname, hpeers, hcommands⟩
  · rintro ⟨hname, hpeers, hcommands⟩
    exact ⟨⟨hname, hcommands⟩, hpeers⟩

/-- A configuration is read back from its file, `parse (toString c) = .ok c`, if and only if its
names are clean, that of the interface not empty, and its commands are trimmed lines. -/
theorem parse_server_iff (c : Server) : parse (toString c) = .ok c ↔
    (∀ name, c.interface.name = some name → name ≠ "" ∧ Clean name.toList) ∧
      (∀ p ∈ c.peers, p.name = "" ∨ Clean p.name.toList) ∧
      ∀ command ∈ c.interface.postUp ++ c.interface.postDown,
        '\n' ∉ command.toList ∧ Trimmed command.toList := by
  constructor
  · intro h
    -- the configuration was read, so it is known what its file is read as
    have hfeedless := feedless_of_parse h
    rw [parse_write hfeedless.tame hfeedless.command] at h
    obtain ⟨hname, hpeers, hcommands⟩ := (reread_eq_self_iff hfeedless).1 (Except.ok.inj h)
    exact ⟨hname, hpeers,
      fun command hc => ⟨hfeedless.command command hc, hcommands command hc⟩⟩
  · rintro ⟨hname, hpeers, hcommands⟩
    have hfeedless : c.Feedless := by
      refine ⟨fun name h => (hname name h).2.1, fun p hp => ?_, fun command h => (hcommands _ h).1⟩
      rcases hpeers p hp with hempty | hclean
      · simp [hempty]
      · exact hclean.1
    rw [parse_write hfeedless.tame hfeedless.command, (reread_eq_self_iff hfeedless).2]
    exact ⟨hname, hpeers, fun command h => (hcommands command h).2⟩

/-! ## Faithful files -/

/-- A configuration without its names: what of it a tool that reads the file acts on. -/
def unnamed (c : Server) : Server :=
  ⟨{ c.interface with name := none }, c.peers.map fun p => { p with name := "" }⟩

/-- A text is **faithful** to a configuration if it has the sections and the entries of the
configuration and no others, and is read as it but for the names. -/
structure Faithful (c : Server) (text : String) : Prop where
  outline : ∃ ss, Section.readAll text.toList = .ok ss ∧
    Section.outline ss = Section.outline c.sections
  parse : ∃ c', parse text = .ok c' ∧ c'.unnamed = c.unnamed

/-- But for its names, a configuration with trimmed commands is read as what it is. -/
theorem unnamed_reread (h : ∀ command ∈ commands c.interface, Trimmed command.toList) :
    c.reread.unnamed = c.unnamed := by
  obtain ⟨⟨name, address, port, key, postUp, postDown⟩, peers⟩ := c
  rw [commands, List.forall_mem_append] at h
  have hup : postUp.map rereadCommand = postUp := map_rereadCommand_eq_self_iff.2 h.1
  have hdown : postDown.map rereadCommand = postDown := map_rereadCommand_eq_self_iff.2 h.2
  simp [unnamed, reread, rereadInterface, rereadPeer, hup, hdown]

/-- The file of a configuration whose commands are trimmed lines is faithful to it exactly when its
names are tame. So the names alone can forge anything in it. -/
theorem faithful_iff (h : ∀ command ∈ commands c.interface,
    '\n' ∉ command.toList ∧ Trimmed command.toList) :
    c.Faithful (toString c) ↔ ∀ s ∈ c.sections, Section.Tame s.comment := by
  have hfeed : ∀ command ∈ commands c.interface, '\n' ∉ command.toList :=
    fun command hc => (h command hc).1
  have htrimmed : ∀ command ∈ commands c.interface, Trimmed command.toList :=
    fun command hc => (h command hc).2
  have hvalues : ∀ s ∈ c.sections, ∀ e ∈ s.entries, Trimmed e.2 := by
    intro s hs e he
    rcases List.mem_cons.1 hs with rfl | hs
    · rcases (of_mem_interfaceSection he).2 with hvalue | ⟨command, hcommand, hvalue⟩
      · exact hvalue.1
      · exact hvalue ▸ htrimmed command hcommand
    · obtain ⟨p, -, rfl⟩ := List.mem_map.1 hs
      exact (of_mem_peerSection he).2.1
  have hlist : (toString c).toList = Section.writeAll c.sections := String.toList_ofList
  have houtline := Section.readAll_writeAll_iff (sections_plain hfeed) hvalues
  rw [← hlist] at houtline
  constructor
  · exact fun hfaithful => houtline.1 hfaithful.outline
  · exact fun htame =>
      ⟨houtline.2 htame, c.reread, parse_write htame hfeed, unnamed_reread htrimmed⟩

end Server

end WireKeeper.Config
