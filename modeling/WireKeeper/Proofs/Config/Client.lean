import WireKeeper.Config.Client
import WireKeeper.Proofs.Config.Value

/-! # The interface file of a client is read back

The file of a configuration is read as that configuration, but for its names, each of which is read
as a comment, and for the host of the server. Brackets at the ends of the host are taken for those
that enclose one with colons, and in front of a host without them blanks do not count.

* `readEndpoint_write`: what an endpoint is read as;
* `rereadHost_eq_self_iff`: the hosts that are read back;
* `parse_write`: what a file is read as;
* `parse_client_iff`: the configurations that are read back. -/

namespace WireKeeper.Config

open Text (trim trimStart trimEnd isBlank Trimmed cutLast_append eq_of_cutLast)

/-! ## Endpoints -/

namespace Client

variable {host value : List Char} {port : UInt16} {c : Client} {i : ClientInterface}
  {p : ClientPeer} {text : String}

/-- A host as it stands in an endpoint: one with colons in brackets, all others as they are. -/
def enclose (host : List Char) : List Char := if ':' ∈ host then '[' :: host ++ [']'] else host

/-- A host without the brackets at its ends, of which any number is taken away. -/
def strip (host : List Char) : List Char :=
  ((host.dropWhile (· == '[')).reverse.dropWhile (· == ']')).reverse

/-- The host an endpoint is read with: what was written, without blanks in front and without
brackets at its ends. -/
def rereadHost (host : List Char) : List Char := strip (trimStart (enclose host))

/-- What is left of a host is a part of it, so it is never longer. -/
theorem strip_isInfix (host : List Char) : strip host <:+: host := by
  have hsuffix : host.dropWhile (· == '[') <:+ host := List.dropWhile_suffix _
  have hprefix : strip host <+: host.dropWhile (· == '[') := by
    rw [← List.reverse_suffix, strip, List.reverse_reverse]
    exact List.dropWhile_suffix _
  exact hprefix.isInfix.trans hsuffix.isInfix

/-- What an endpoint is read as: `rereadHost host` and the port, as the last colon of it is the one
in front of the port. -/
theorem readEndpoint_write (host : List Char) (port : UInt16) :
    readEndpoint (trim (writeEndpoint host port)) = .ok (rereadHost host, port) := by
  have hdigits : ':' ∉ Text.decimal port.toNat := fun h =>
    (Text.of_isSome_digitValue? (Text.isSome_digitValue?_of_mem_decimal h)).2 (by decide)
  have hend : trimEnd (Text.decimal port.toNat) = Text.decimal port.toNat :=
    Text.trimEnd_eq_self_iff.2 (isValue_decimal port.toNat).1.2
  have htrim : trim (writeEndpoint host port) =
      trimStart (enclose host) ++ ':' :: Text.decimal port.toNat := by
    show trim (enclose host ++ ':' :: Text.decimal port.toNat) = _
    rw [Text.trim_append_cons (by decide), hend]
  rw [readEndpoint, htrim, cutLast_append hdigits]
  simp only [Section.readPort_decimal]
  rfl

/-- The host that is read is a part of the endpoint: each of its characters stands there. -/
theorem mem_of_readEndpoint (h : readEndpoint value = .ok (host, port)) {c : Char}
    (hc : c ∈ host) : c ∈ value := by
  rw [readEndpoint] at h
  split at h
  · cases h
  · next host' port' hcut =>
    obtain ⟨port'', hread, hpair⟩ := exists_of_map_ok h
    cases hpair
    rw [eq_of_cutLast hcut]
    exact List.mem_append_left _ ((strip_isInfix host').subset hc)

/-- Exactly the hosts without brackets at their ends are left as they are: none with `[` in front or
`]` behind. -/
theorem strip_eq_self_iff :
    strip host = host ↔ (∀ c ∈ host.head?, c ≠ '[') ∧ ∀ c ∈ host.getLast?, c ≠ ']' := by
  have hstart := Text.dropWhile_eq_self_iff (s := host) (p := (· == '['))
  have hend := Text.reverse_dropWhile_eq_self_iff (s := host) (p := (· == ']'))
  simp only [beq_eq_false_iff_ne] at hstart hend
  rw [← hstart, ← hend, strip]
  constructor
  · intro h
    -- nothing can be removed in front, for what is removed would be missing
    have hsuffix : host.dropWhile (· == '[') <:+ host := List.dropWhile_suffix _
    have hlength : host.length ≤ (host.dropWhile (· == '[')).length := by
      have hle := (List.dropWhile_sublist (· == ']')
        (l := (host.dropWhile (· == '[')).reverse)).length_le
      have hsame := congrArg List.length h
      rw [List.length_reverse] at hsame hle
      omega
    have hself := hsuffix.eq_of_length_le hlength
    exact ⟨hself, by rwa [hself] at h⟩
  · rintro ⟨hself, h⟩
    rwa [hself]

/-- Brackets around a host with colons are taken away again, and with them those that the host
itself has at its ends. -/
theorem strip_enclose (h : ':' ∈ host) : strip ('[' :: host ++ [']']) = strip host := by
  have hdrop : ('[' :: host ++ [']']).dropWhile (· == '[') =
      host.dropWhile (· == '[') ++ [']'] := by
    rw [List.cons_append, List.dropWhile_cons_of_pos (by decide), List.dropWhile_append, if_neg]
    -- the colon is no bracket
    intro hempty
    have hall : ∀ c ∈ host, (c == '[') = true := by
      have htake := List.takeWhile_append_dropWhile (p := (· == '[')) (l := host)
      rw [List.isEmpty_iff.1 hempty, List.append_nil] at htake
      intro c hc
      rw [← htake] at hc
      exact List.all_eq_true.1 List.all_takeWhile c hc
    exact absurd (hall _ h) (by decide)
  rw [strip, hdrop, List.reverse_append, List.reverse_singleton, List.singleton_append,
    List.dropWhile_cons_of_pos (by decide), strip]

/-- Exactly these hosts are read as what they are: no bracket at an end and, unless there are colons
in it, no blank in front. Brackets around a host keep blanks in front of it. -/
theorem rereadHost_eq_self_iff : rereadHost host = host ↔ (∀ c ∈ host.head?, c ≠ '[') ∧
    (∀ c ∈ host.getLast?, c ≠ ']') ∧ (':' ∈ host ∨ ∀ c ∈ host.head?, isBlank c = false) := by
  by_cases hcolon : ':' ∈ host
  · have hstart : trimStart ('[' :: host ++ [']']) = '[' :: host ++ [']'] :=
      Text.trimStart_eq_self_iff.2 (by simp; decide)
    rw [rereadHost, enclose, if_pos hcolon, hstart, strip_enclose hcolon, strip_eq_self_iff]
    simp [hcolon]
  · rw [rereadHost, enclose, if_neg hcolon]
    -- with neither brackets nor blanks in front nothing is lost
    by_cases hblank : ∀ c ∈ host.head?, isBlank c = false
    · rw [Text.trimStart_eq_self_iff.2 hblank, strip_eq_self_iff]
      simp only [hcolon, false_or]
      constructor
      · exact fun h => ⟨h.1, h.2, hblank⟩
      · exact fun h => ⟨h.1, h.2.1⟩
    · -- a blank in front is missing from what is read
      have hne : strip (trimStart host) ≠ host := by
        intro h
        have hsuffix : trimStart host <:+ host := List.dropWhile_suffix _
        have hle := (strip_isInfix (trimStart host)).length_le
        rw [h] at hle
        exact hblank (Text.trimStart_eq_self_iff.1 (hsuffix.eq_of_length_le hle))
      simp only [hne, hcolon, false_or, false_iff, not_and]
      exact fun _ _ => hblank

/-! ## Sections of a configuration -/

/-- The entries of the interface: its address, its key, and the DNS servers if there are any. -/
theorem entries_interfaceSection (i : ClientInterface) : (interfaceSection i).entries =
    [("Address".toList, i.address.write), ("PrivateKey".toList, i.privateKey.toBase64.toList)] ++
      if i.dns.isEmpty then [] else [("DNS".toList, (Address.formatAll i.dns ",").toList)] := rfl

/-- The entries of the server: endpoint, key and nets, and a keepalive if there is one. -/
theorem entries_peerSection (p : ClientPeer) : (peerSection p).entries =
    [("Endpoint".toList, endpoint p), ("PublicKey".toList, p.publicKey.toBase64.toList),
      ("AllowedIPs".toList, (Net.formatAll p.allowedIPs ",").toList)] ++
      p.persistentKeepalive.toList.map
        (fun n => ("PersistentKeepalive".toList, Text.decimal n.toNat)) := by
  obtain ⟨name, host, port, key, ips, keepalive⟩ := p
  cases keepalive with
  | none => rfl
  | some n => rfl

/-- An entry of the interface has a key of a configuration file and a value, so it is read as it was
written. -/
theorem of_mem_interfaceSection {e : Entry} (h : e ∈ (interfaceSection i).entries) :
    Section.IsKey e.1 ∧ IsValue e.2 := by
  rw [entries_interfaceSection, List.mem_append] at h
  rcases h with h | h
  · simp only [List.mem_cons, List.not_mem_nil, or_false] at h
    rcases h with rfl | rfl
    · exact ⟨show Section.IsKey "Address".toList by decide, isValue_net _⟩
    · exact ⟨show Section.IsKey "PrivateKey".toList by decide, isValue_key _⟩
  · split at h
    · cases h
    · rw [List.mem_singleton.1 h]
      exact ⟨show Section.IsKey "DNS".toList by decide, isValue_addresses _⟩

/-- An entry of the server has a key of a configuration file, and a value unless it is the endpoint,
whose host may be any text. -/
theorem of_mem_peerSection {e : Entry} (h : e ∈ (peerSection p).entries) :
    Section.IsKey e.1 ∧ (IsValue e.2 ∨ e.2 = endpoint p) := by
  rw [entries_peerSection, List.mem_append] at h
  rcases h with h | h
  · simp only [List.mem_cons, List.not_mem_nil, or_false] at h
    rcases h with rfl | rfl | rfl
    · exact ⟨show Section.IsKey "Endpoint".toList by decide, .inr rfl⟩
    · exact ⟨show Section.IsKey "PublicKey".toList by decide, .inl (isValue_key _)⟩
    · exact ⟨show Section.IsKey "AllowedIPs".toList by decide, .inl (isValue_nets _)⟩
  · obtain ⟨n, -, rfl⟩ := List.mem_map.1 h
    have hkey : Section.IsKey "PersistentKeepalive".toList := by decide
    exact ⟨hkey, .inl (isValue_decimal _)⟩

/-- An endpoint is a line if its host is, as the colon and the port have no line feed. -/
theorem feed_not_mem_endpoint (h : '\n' ∉ p.endpointHost.toList) : '\n' ∉ endpoint p := by
  have hhost : '\n' ∉ enclose p.endpointHost.toList := by
    rw [enclose]
    split
    · simp [h]
    · exact h
  show '\n' ∉ enclose p.endpointHost.toList ++ ':' :: Text.decimal p.endpointPort.toNat
  simp only [List.mem_append, List.mem_cons, not_or]
  exact ⟨hhost, by decide, (isValue_decimal _).2⟩

/-- The sections of a configuration whose host is a line are plain: all their entries are lines of
their own. -/
theorem sections_plain (h : '\n' ∉ c.peer.endpointHost.toList) : ∀ s ∈ c.sections, s.Plain := by
  intro s hs
  simp only [sections, List.mem_cons, List.not_mem_nil, or_false] at hs
  rcases hs with rfl | rfl
  · have htitle : '\n' ∉ "Interface".toList ∧ Trimmed "Interface".toList := by decide
    exact ⟨htitle.1, htitle.2, fun e he => (of_mem_interfaceSection he).1,
      fun e he => (of_mem_interfaceSection he).2.2⟩
  · have htitle : '\n' ∉ "Peer".toList ∧ Trimmed "Peer".toList := by decide
    refine ⟨htitle.1, htitle.2, fun e he => (of_mem_peerSection he).1, fun e he => ?_⟩
    rcases (of_mem_peerSection he).2 with hvalue | hendpoint
    · exact hvalue.2
    · exact hendpoint ▸ feed_not_mem_endpoint h

/-! ## Reading the sections -/

/-- What the server is read as: with its name as a comment is read, and with its host as an endpoint
is. -/
def rereadPeer (p : ClientPeer) : ClientPeer :=
  { p with
    name := rereadName p.name
    endpointHost := String.ofList (rereadHost p.endpointHost.toList) }

/-- What a configuration is read as: names and host may change, addresses, keys, nets and numbers do
not. -/
def reread (c : Client) : Client :=
  ⟨{ c.interface with name := rereadName c.interface.name }, rereadPeer c.peer⟩

/-- The values of the keys of the interface: one address, one key, and one list of DNS servers or
none. -/
theorem all_interfaceSection (i : ClientInterface) :
    (interfaceSection i).all "Address" = [i.address.write] ∧
      (interfaceSection i).all "PrivateKey" = [i.privateKey.toBase64.toList] ∧
      (interfaceSection i).all "DNS" =
        if i.dns.isEmpty then [] else [(Address.formatAll i.dns ",").toList] := by
  simp only [Section.all_eq_values, entries_interfaceSection, Section.values_append]
  cases i.dns.isEmpty with
  | true =>
    simp (disch := decide) only [if_true, Section.values_cons_same, Section.values_cons_other,
      Section.values_nil, List.append_nil, and_self]
  | false =>
    simp (disch := decide) only [Bool.false_eq_true, if_false, Section.values_cons_same,
      Section.values_cons_other, Section.values_nil, List.append_nil, List.nil_append, and_self]

/-- The values of the keys of the server: one endpoint, one key, one list of nets, and one keepalive
or none. -/
theorem all_peerSection (p : ClientPeer) :
    (peerSection p).all "Endpoint" = [endpoint p] ∧
      (peerSection p).all "PublicKey" = [p.publicKey.toBase64.toList] ∧
      (peerSection p).all "AllowedIPs" = [(Net.formatAll p.allowedIPs ",").toList] ∧
      (peerSection p).all "PersistentKeepalive" =
        p.persistentKeepalive.toList.map fun n => Text.decimal n.toNat := by
  simp (disch := decide) only [Section.all_eq_values, entries_peerSection,
    Section.values_append, Section.values_cons_same, Section.values_cons_other,
    Section.values_map_same, Section.values_map_other, Section.values_nil, List.nil_append,
    List.append_nil, and_self]

/-- The section of the interface is read as the interface, with the name that its comment is read
as. -/
theorem readInterface_reread (i : ClientInterface) :
    readInterface (interfaceSection i).reread = .ok { i with name := rereadName i.name } := by
  obtain ⟨haddress, hprivate, hdns⟩ := all_interfaceSection i
  have haddress' := Section.all_reread_of_isValue haddress
    (List.forall_mem_singleton.2 (isValue_net i.address))
  have hprivate' := Section.all_reread_of_isValue hprivate
    (List.forall_mem_singleton.2 (isValue_key i.privateKey.toKeyBytes))
  rw [readInterface, Section.require_of_all haddress', Section.require_of_all hprivate',
    Section.get?_reread, Section.get?, hdns]
  -- an empty list of DNS servers is not written, and is read from the entry that is missing
  by_cases hempty : i.dns.isEmpty = true
  · have hnone : i.dns = [] := List.isEmpty_iff.1 hempty
    simp only [hempty, if_true, List.getLast?_nil, Option.map_none, bind, Except.bind,
      Section.readNet_write, Section.readPrivateKey_toBase64]
    rw [← hnone]
    rfl
  · simp only [hempty, Bool.false_eq_true, if_false, List.getLast?_singleton, Option.map_some,
      (isValue_addresses i.dns).1.trim_eq, bind, Except.bind, Section.readNet_write,
      Section.readPrivateKey_toBase64, Section.readAddresses_formatAll]
    rfl

/-- The section of the server is read as the server, with the name and the host that are read
instead of its own. -/
theorem readPeer_reread (p : ClientPeer) :
    readPeer (peerSection p).reread = .ok (rereadPeer p) := by
  obtain ⟨hendpoint, hkey, hips, hkeepalive⟩ := all_peerSection p
  -- the endpoint alone may have blanks at its ends, so it is the only value that trimming may
  -- change
  have hendpoint' : (peerSection p).reread.all "Endpoint" = [trim (endpoint p)] := by
    rw [Section.all_reread, hendpoint]
    rfl
  have hkey' := Section.all_reread_of_isValue hkey
    (List.forall_mem_singleton.2 (isValue_key p.publicKey.toKeyBytes))
  have hips' := Section.all_reread_of_isValue hips
    (List.forall_mem_singleton.2 (isValue_nets p.allowedIPs))
  have hkeepalive' := Section.all_reread_of_isValue hkeepalive
    (List.forall_mem_map.2 fun n _ => isValue_decimal _)
  have hread : readEndpoint (trim (endpoint p)) =
      .ok (rereadHost p.endpointHost.toList, p.endpointPort) := readEndpoint_write _ _
  rw [readPeer, Section.require_of_all hendpoint', Section.require_of_all hkey',
    Section.require_of_all hips', Section.readPort?_of_all hkeepalive']
  simp only [bind, Except.bind, hread, Section.readPublicKey_toBase64,
    Section.readNets_formatAll]
  rfl

/-- The sections of a configuration are read as the configuration, `c.reread`: there is one of each
kind. -/
theorem ofSections_reread (c : Client) :
    ofSections (c.sections.map Section.reread) = .ok c.reread := by
  have htitles : "Interface".toList ≠ "Peer".toList := by decide
  have hinterface : Section.first (c.sections.map Section.reread) "Interface" =
      .ok (interfaceSection c.interface).reread := Section.first_cons rfl _
  have hpeer : Section.first (c.sections.map Section.reread) "Peer" =
      .ok (peerSection c.peer).reread :=
    (Section.first_cons_other htitles _).trans (Section.first_cons rfl _)
  rw [ofSections, hinterface, hpeer]
  simp only [bind, Except.bind, readInterface_reread, readPeer_reread]
  rfl

/-- What the file of a configuration with tame names is read as: `parse (toString c) = .ok
c.reread`, if the host is a line. -/
theorem parse_write (htame : ∀ s ∈ c.sections, Section.Tame s.comment)
    (hhost : '\n' ∉ c.peer.endpointHost.toList) : parse (toString c) = .ok c.reread := by
  have hread : Section.readAll (toString c).toList = .ok (c.sections.map Section.reread) := by
    show Section.readAll (String.ofList c.write).toList = _
    rw [String.toList_ofList]
    exact Section.readAll_writeAll (sections_plain hhost) htame
  rw [parse]
  exact bind_eq_ok.2 ⟨_, hread, ofSections_reread c⟩

/-! ## The configurations that are read back -/

/-- A configuration whose names and host are lines, as those of every configuration that was read
are. -/
structure Feedless (c : Client) : Prop where
  name : ∀ name ∈ c.interface.name, '\n' ∉ name.toList
  peer : ∀ name ∈ c.peer.name, '\n' ∉ name.toList
  host : '\n' ∉ c.peer.endpointHost.toList

/-- The name of the interface is the comment of its section, whatever its entries say. -/
theorem name_of_readInterface {s : Section} (h : readInterface s = .ok i) :
    i.name = s.comment.map String.ofList := by
  rw [readInterface] at h
  obtain ⟨_, _, h⟩ := bind_eq_ok.1 h
  obtain ⟨_, _, h⟩ := bind_eq_ok.1 h
  obtain ⟨_, _, h⟩ := bind_eq_ok.1 h
  obtain ⟨_, _, h⟩ := bind_eq_ok.1 h
  split at h
  · obtain ⟨_, _, h⟩ := bind_eq_ok.1 h
    cases h
    rfl
  · cases h
    rfl

/-- No configuration that is read has a line feed in a name or in its host, as it was read line by
line. -/
theorem feedless_of_parse (h : parse text = .ok c) : c.Feedless := by
  rw [parse] at h
  obtain ⟨ss, hread, h⟩ := bind_eq_ok.1 h
  have hfeedless := Section.feedless_of_readAll hread
  have hcomment : ∀ s ∈ ss, ∀ name ∈ s.comment.map String.ofList, '\n' ∉ name.toList := by
    intro s hs name hname
    obtain ⟨text, htext, rfl⟩ := Option.map_eq_some_iff.1 hname
    rw [String.toList_ofList]
    exact (hfeedless s hs).comment text htext
  rw [ofSections] at h
  obtain ⟨s, hs, h⟩ := bind_eq_ok.1 h
  obtain ⟨s', hs', h⟩ := bind_eq_ok.1 h
  obtain ⟨i, hinterface, h⟩ := bind_eq_ok.1 h
  obtain ⟨p, hpeer, h⟩ := bind_eq_ok.1 h
  cases h
  have hname : i.name = s.comment.map String.ofList := name_of_readInterface hinterface
  -- the host is a part of a value, and each value a part of a line
  rw [readPeer] at hpeer
  obtain ⟨value, hvalue, hpeer⟩ := bind_eq_ok.1 hpeer
  obtain ⟨⟨host, port⟩, hendpoint, hpeer⟩ := bind_eq_ok.1 hpeer
  obtain ⟨_, _, hpeer⟩ := bind_eq_ok.1 hpeer
  obtain ⟨_, _, hpeer⟩ := bind_eq_ok.1 hpeer
  obtain ⟨_, _, hpeer⟩ := bind_eq_ok.1 hpeer
  obtain ⟨_, _, hpeer⟩ := bind_eq_ok.1 hpeer
  obtain ⟨_, _, hpeer⟩ := bind_eq_ok.1 hpeer
  cases hpeer
  refine ⟨hname ▸ hcomment s (Section.mem_of_first hs), hcomment s' (Section.mem_of_first hs'), ?_⟩
  rw [String.toList_ofList]
  intro hfeed
  have hmem := Section.mem_all_of_require hvalue
  exact (hfeedless s' (Section.mem_of_first hs')).not_mem_of_mem_all hmem
    (mem_of_readEndpoint hendpoint hfeed)

/-- The names of one line are tame: they stand in comments that end with their line. -/
theorem Feedless.tame (h : c.Feedless) : ∀ s ∈ c.sections, Section.Tame s.comment := by
  intro s hs
  refine Section.tame_of_not_mem fun text htext => ?_
  simp only [sections, List.mem_cons, List.not_mem_nil, or_false] at hs
  rcases hs with rfl | rfl
  · obtain ⟨name, hname, rfl⟩ := Option.map_eq_some_iff.1 htext
    exact h.name name hname
  · obtain ⟨name, hname, rfl⟩ := Option.map_eq_some_iff.1 htext
    exact h.peer name hname

/-- Whether a configuration is left as it is when it is read back is decided by its two names and
its host alone. -/
theorem reread_eq_self_iff (c : Client) : c.reread = c ↔ rereadName c.interface.name =
    c.interface.name ∧ rereadName c.peer.name = c.peer.name ∧
      rereadHost c.peer.endpointHost.toList = c.peer.endpointHost.toList := by
  obtain ⟨⟨name, address, key, dns⟩, ⟨name', host, port, key', ips, keepalive⟩⟩ := c
  have hhost : String.ofList (rereadHost host.toList) = host ↔
      rereadHost host.toList = host.toList := by
    rw [← String.toList_inj, String.toList_ofList]
  simp [reread, rereadPeer, hhost]

/-- A configuration is read back from its file, `parse (toString c) = .ok c`, if and only if its
names are clean and not empty, and its host is a line without brackets at its ends and, unless it
has colons, without a blank in front. -/
theorem parse_client_iff (c : Client) : parse (toString c) = .ok c ↔
    (∀ name, c.interface.name = some name → name ≠ "" ∧ Clean name.toList) ∧
      (∀ name, c.peer.name = some name → name ≠ "" ∧ Clean name.toList) ∧
      '\n' ∉ c.peer.endpointHost.toList ∧
      c.peer.endpointHost.toList.head? ≠ some '[' ∧
      c.peer.endpointHost.toList.getLast? ≠ some ']' ∧
      (':' ∈ c.peer.endpointHost.toList ∨
        ∀ first, c.peer.endpointHost.toList.head? = some first → isBlank first = false) := by
  have hends : (c.peer.endpointHost.toList.head? ≠ some '[' ∧
      c.peer.endpointHost.toList.getLast? ≠ some ']' ∧
      (':' ∈ c.peer.endpointHost.toList ∨
        ∀ first, c.peer.endpointHost.toList.head? = some first → isBlank first = false)) ↔
      rereadHost c.peer.endpointHost.toList = c.peer.endpointHost.toList := by
    rw [rereadHost_eq_self_iff]
    simp only [Option.mem_def, ne_eq]
    grind
  rw [hends]
  constructor
  · intro h
    -- the configuration was read, so it is known what its file is read as
    have hfeedless := feedless_of_parse h
    rw [parse_write hfeedless.tame hfeedless.host] at h
    obtain ⟨hname, hpeer, hhost⟩ := (reread_eq_self_iff c).1 (Except.ok.inj h)
    exact ⟨(rereadName_eq_self_iff hfeedless.name).1 hname,
      (rereadName_eq_self_iff hfeedless.peer).1 hpeer, hfeedless.host, hhost⟩
  · rintro ⟨hname, hpeer, hfeed, hhost⟩
    have hfeedless : c.Feedless :=
      ⟨fun name h => (hname name h).2.1, fun name h => (hpeer name h).2.1, hfeed⟩
    rw [parse_write hfeedless.tame hfeed, (reread_eq_self_iff c).2]
    exact ⟨(rereadName_eq_self_iff hfeedless.name).2 hname,
      (rereadName_eq_self_iff hfeedless.peer).2 hpeer, hhost⟩

end Client

end WireKeeper.Config
