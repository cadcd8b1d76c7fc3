import WireKeeper.Proofs.Config.Client
import WireKeeper.Proofs.Service.Lasting
import WireKeeper.Proofs.Settings.LastSetter

/-! # The files of clients under accepted settings

A service hands out the configuration of a client when the client is added and whenever it is got,
and the configuration names the host and the port that the service was started with. Settings are
accepted with any host that is more than blanks. The file of a configuration, however, is read back
with another host if brackets stand at the ends of the one that was set, or a blank in front of it,
and with a line feed in the host it may be anything.

* `Client.ReadBackHost`, `CleanNames.parse_eq_self_iff`: the hosts that are read back;
* `Settings.of_load_eq_ok`: the rules that accepted settings obey;
* `Service.Hands`, `Service.settings_undergoAll`: what a service hands out, and the settings it
  keeps;
* `Service.fileRead_of_load`: what the files of clients are read as;
* `Service.not_fileRead_bracketed`: a host whose brackets are missing when it is read. -/

namespace WireKeeper

namespace Config.Client

open Text (isBlank)

variable {c : Client}

/-- A host that is **read back** from an endpoint: a line without brackets at its ends and, unless
it has a colon, without a blank in front. -/
structure ReadBackHost (host : List Char) : Prop where
  feedless : '\n' ∉ host
  /-- No bracket opens it. -/
  opening : ∀ first ∈ host.head?, first ≠ '['
  /-- No bracket closes it. -/
  closing : ∀ last ∈ host.getLast?, last ≠ ']'
  /-- Without a colon, it does not begin with a blank. -/
  start : ':' ∈ host ∨ ∀ first ∈ host.head?, isBlank first = false

/-- The configuration with another host, and all else as it is. -/
def withHost (c : Client) (host : List Char) : Client :=
  { c with peer := { c.peer with endpointHost := String.ofList host } }

/-- A configuration is the same with a host if and only if that is its host. -/
theorem withHost_eq_self_iff {host : List Char} :
    c.withHost host = c ↔ host = c.peer.endpointHost.toList := by
  obtain ⟨i, ⟨n, h, port, key, ips, keepalive⟩⟩ := c
  simp [withHost, ← String.toList_inj]

/-- A configuration whose names are clean and not empty. -/
structure CleanNames (c : Client) : Prop where
  name : ∀ name, c.interface.name = some name → name ≠ "" ∧ Clean name.toList
  peer : ∀ name, c.peer.name = some name → name ≠ "" ∧ Clean name.toList

/-- With clean names, a file is read as the configuration but for its host, if that is a line. -/
theorem CleanNames.parse_eq (h : c.CleanNames) (hfeed : '\n' ∉ c.peer.endpointHost.toList) :
    parse (toString c) = .ok (c.withHost (rereadHost c.peer.endpointHost.toList)) := by
  have hfeedless : c.Feedless :=
    ⟨fun name hname => (h.name name hname).2.1, fun name hname => (h.peer name hname).2.1, hfeed⟩
  have hname := (rereadName_eq_self_iff hfeedless.name).2 h.name
  have hpeer := (rereadName_eq_self_iff hfeedless.peer).2 h.peer
  rw [parse_write hfeedless.tame hfeed, reread, rereadPeer, hname, hpeer]
  rfl

/-- With clean names, a file is read back if and only if its host is. -/
theorem CleanNames.parse_eq_self_iff (h : c.CleanNames) :
    parse (toString c) = .ok c ↔ ReadBackHost c.peer.endpointHost.toList := by
  -- a host with a line feed is never read
  by_cases hfeed : '\n' ∈ c.peer.endpointHost.toList
  · exact ⟨fun h => absurd hfeed (feedless_of_parse h).host, fun h => absurd hfeed h.feedless⟩
  · rw [h.parse_eq hfeed, Except.ok.injEq, withHost_eq_self_iff, rereadHost_eq_self_iff]
    exact ⟨fun ⟨h₁, h₂, h₃⟩ => ⟨hfeed, h₁, h₂, h₃⟩, fun h => ⟨h.opening, h.closing, h.start⟩⟩

end Config.Client

/-! ## Accepted settings -/

/-- Settings that were loaded have a host that is more than blanks, and a port that is not zero. -/
theorem Settings.of_load_eq_ok {disk : Disk} {sources : List Source} {config : Settings}
    (h : load disk sources = .ok config) :
    (∃ c ∈ config.wireguard.host.toList, Text.isBlank c = false) ∧ config.wireguard.port ≠ 0 := by
  obtain ⟨l, -, hchecked⟩ := bind_eq_ok.1 h
  obtain ⟨config', -, hcheck⟩ := bind_eq_ok.1 hchecked
  rw [check] at hcheck
  split at hcheck
  · cases hcheck
  · next hnone =>
    cases hcheck
    rw [brokenRule?] at hnone
    split_ifs at hnone with hhost hport
    refine ⟨?_, hport⟩
    rw [List.isEmpty_iff, Text.trim_eq_nil_iff] at hhost
    simpa using hhost

namespace Service

variable {s f : Service} {name : String} {c : Config.Client}

/-! ## What a service hands out -/

/-- A service **hands out** a configuration of a client when it adds or gets the client. -/
def Hands (s : Service) (name : String) (c : Config.Client) : Prop :=
  (∃ fresh options f, s.add fresh name options = (.ok c, f)) ∨ s.get name = .ok c

/-- What a service hands out was made of a record of the client: it is `s.clientConfig p` for one
with the name. -/
theorem exists_of_hands (h : s.Hands name c) : ∃ p, p.name = name ∧ s.clientConfig p = c := by
  obtain ⟨fresh, options, f, h⟩ | h := h
  · obtain ⟨e, f', hadd, -⟩ | ⟨a, f', -, hadd, -⟩ := s.add_cursor fresh name options
    · cases hadd.symm.trans h
    · cases hadd.symm.trans h
      exact ⟨s.newPeer fresh name a options, rfl, rfl⟩
  · rw [get] at h
    split at h
    · next p hp =>
      cases h
      exact ⟨p, (Store.of_view_get hp).1, rfl⟩
    · cases h
    · cases h

/-- Every incident keeps the settings, a restart and a failure included. -/
theorem settings_undergo {i : Incident} (h : s.undergo i = .ok f) : f.settings = s.settings := by
  match i with
  | .block b verb on =>
    cases h
    exact s.settings_meet (.block b verb on)
  | .event (.call c) =>
    cases h
    exact (s.after_keeps c).settings
  | .event (.restart fresh) =>
    obtain ⟨i, peers, hstarted⟩ := of_start_eq_ok h
    exact hstarted.settings_eq

/-- A run keeps the settings, whatever the service undergoes in it. -/
theorem settings_undergoAll {is : List Incident} (h : s.undergoAll is = .ok f) :
    f.settings = s.settings := by
  induction is generalizing s with
  | nil =>
    cases h
    rfl
  | cons i is ih =>
    rw [undergoAll] at h
    split at h
    · next g hg => exact (ih h).trans (settings_undergo hg)
    · cases h

/-! ## The files -/

/-- What the file of a client is read as that a service with these settings handed out. -/
structure FileRead (settings : ServiceSettings) (c : Config.Client) : Prop where
  host : c.peer.endpointHost = settings.host
  port : c.peer.endpointPort = settings.port
  /-- A file whose host is a line is read, and nothing but the host can be another one. -/
  read : '\n' ∉ settings.host.toList → Config.Client.parse (toString c) =
    .ok (c.withHost (Config.Client.rereadHost settings.host.toList))
  /-- The file is read back if and only if the host is. -/
  same_iff : Config.Client.parse (toString c) = .ok c ↔
    Config.Client.ReadBackHost settings.host.toList

/-- The files of clients with clean names are read so, with the host and the port of the
settings. -/
theorem Hands.fileRead (h : s.Hands name c) (hempty : name ≠ "")
    (hclean : Config.Clean name.toList) : FileRead s.settings c := by
  obtain ⟨p, rfl, rfl⟩ := exists_of_hands h
  have hserver : serverName ≠ "" ∧ Config.Clean serverName.toList := by decide
  have hnames : (s.clientConfig p).CleanNames := by
    refine ⟨fun name hname => ?_, fun name hname => ?_⟩
    · cases hname
      exact ⟨hempty, hclean⟩
    · cases hname
      exact hserver
  exact ⟨rfl, rfl, hnames.parse_eq, hnames.parse_eq_self_iff⟩

/-- Accepted settings have a host that is more than blanks, and a port. Whatever a service undergoes
that was started with them, it hands out configurations with this host and this port; the files of
clients with clean names are read, unless there is a line feed in the host, and they are read back
if and only if the host is. -/
theorem fileRead_of_load {disk : Disk} {sources : List Source} {config : Settings}
    (hload : Settings.load disk sources = .ok config) :
    (∃ c ∈ config.wireguard.host.toList, Text.isBlank c = false) ∧ config.wireguard.port ≠ 0 ∧
      ∀ (fresh : PrivateKey) (store : Store) (controller : Controller) (s f : Service)
        (incidents : List Incident) (name : String) (c : Config.Client),
        start config.wireguard.toServiceSettings fresh store controller = .ok s →
        s.undergoAll incidents = .ok f → name ≠ "" → Config.Clean name.toList → f.Hands name c →
          FileRead config.wireguard.toServiceSettings c := by
  obtain ⟨hhost, hport⟩ := Settings.of_load_eq_ok hload
  refine ⟨hhost, hport, fun fresh store controller s f is name c hstart hrun hempty hclean h => ?_⟩
  obtain ⟨i, peers, hstarted⟩ := of_start_eq_ok hstart
  have hsettings : f.settings = config.wireguard.toServiceSettings :=
    (settings_undergoAll hrun).trans hstarted.settings_eq
  exact hsettings ▸ h.fileRead hempty hclean

/-- The defaults, and an environment with nothing but a host. -/
def hostedSources (host : String) : List Source :=
  [.defaults, .environment fun name => if name = "WGWISH_WIREGUARD_HOST" then some host else none]

/-- These sources are in order, so loading lays them one over the other. -/
theorem load_hostedSources (host : String) : Settings.load {} (hostedSources host) =
    (Source.layAll {} (hostedSources host) .empty).bind Settings.ofLayer := by
  have hordered : (hostedSources host).Pairwise fun a b => a.precedence ≤ b.precedence := by
    simp [hostedSources, Source.precedence]
  rw [Settings.load, Source.inOrder_of_pairwise hordered]

/-- A service that these settings start on an empty store. -/
def startLoaded (config : Settings) : Except ServiceError Service :=
  start config.wireguard.toServiceSettings ⟨.ofNat 1⟩ {} ⟨"wg0.conf", "wg0", none, []⟩

/-- A run in which `alice` is added, and the service is started anew. -/
def enrolledRun : List Incident :=
  [.event (.call (.add ⟨.ofNat 2⟩ "alice" {})), .event (.restart ⟨.ofNat 3⟩)]

/-- For a server at an address of sixteen bytes, the file of `alice` is read back after the
restart. -/
theorem fileRead_of_load_colons :
    ∃ config s f c, Settings.load {} (hostedSources "2001:db8::1") = .ok config ∧
      startLoaded config = .ok s ∧ s.undergoAll enrolledRun = .ok f ∧ f.get "alice" = .ok c ∧
      c.peer.endpointHost = "2001:db8::1" ∧ Config.Client.parse (toString c) = .ok c := by
  have hok : (Settings.load {} (hostedSources "2001:db8::1")).toOption.map (fun config =>
      (config.wireguard.host, (startLoaded config).toOption.map fun s =>
        (s.undergoAll enrolledRun).toOption.map fun f =>
          (f.get "alice").toOption.map fun _ => ())) =
      some ("2001:db8::1", some (some (some ()))) := by
    rw [load_hostedSources]
    decide +kernel
  -- the run is evaluated once, and each of its steps is named
  obtain ⟨config, hload, hseen⟩ := exists_of_toOption_map hok
  obtain ⟨hhost, hstarted⟩ := Prod.mk.inj hseen
  obtain ⟨s, hs, hran⟩ := exists_of_toOption_map hstarted
  obtain ⟨f, hf, hgot⟩ := exists_of_toOption_map hran
  obtain ⟨c, hc, -⟩ := exists_of_toOption_map hgot
  obtain ⟨-, -, hfiles⟩ := fileRead_of_load hload
  have hread := hfiles _ _ _ s f enrolledRun "alice" c hs hf (by decide) (by decide) (.inr hc)
  have hback : Config.Client.ReadBackHost "2001:db8::1".toList := by
    refine ⟨by decide, fun first hfirst => ?_, fun last hlast => ?_, .inl (by decide)⟩
    · cases hfirst
      decide
    · cases hlast
      decide
  exact ⟨config, s, f, c, hload, hs, hf, hc, hread.host.trans hhost,
    hread.same_iff.2 (hhost ▸ hback)⟩

/-- An accepted host with brackets of its own is read without them: `[2001:db8::1]` is written, and
`2001:db8::1` is read. -/
theorem not_fileRead_bracketed :
    ∃ config s f c, Settings.load {} (hostedSources "[2001:db8::1]") = .ok config ∧
      startLoaded config = .ok s ∧ s.add ⟨.ofNat 2⟩ "alice" {} = (.ok c, f) ∧
      c.peer.endpointHost = "[2001:db8::1]" ∧
      Config.Client.parse (toString c) = .ok (c.withHost "2001:db8::1".toList) ∧
      Config.Client.parse (toString c) ≠ .ok c := by
  have hok : (Settings.load {} (hostedSources "[2001:db8::1]")).toOption.map (fun config =>
      (config.wireguard.host, (startLoaded config).toOption.map fun s =>
        (s.add ⟨.ofNat 2⟩ "alice" {}).1.toOption.isSome)) =
      some ("[2001:db8::1]", some true) := by
    rw [load_hostedSources]
    decide +kernel
  obtain ⟨config, hload, hseen⟩ := exists_of_toOption_map hok
  obtain ⟨hhost, hstarted⟩ := Prod.mk.inj hseen
  obtain ⟨s, hs, hadded⟩ := exists_of_toOption_map hstarted
  obtain ⟨c, f, hadd⟩ := exists_eq_ok_of_isSome hadded
  obtain ⟨i, peers, hmade⟩ := of_start_eq_ok hs
  have hsettings : s.settings.host = "[2001:db8::1]" := by rw [hmade.settings_eq, hhost]
  -- what is handed out has the host that was set, and its file has another one
  have hhands : s.Hands "alice" c := .inl ⟨_, _, f, hadd⟩
  have hread := hhands.fileRead (by decide) (by decide)
  refine ⟨config, s, f, c, hload, hs, hadd, hread.host.trans hsettings, ?_, fun h => ?_⟩
  · have hhost' : Config.Client.rereadHost "[2001:db8::1]".toList = "2001:db8::1".toList := by
      decide
    rw [hread.read (by rw [hsettings]; decide), hsettings, hhost']
  · have hopening := (hread.same_iff.1 h).opening
    rw [hsettings] at hopening
    exact hopening '[' rfl rfl

end Service

end WireKeeper
