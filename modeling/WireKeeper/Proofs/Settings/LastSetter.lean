import WireKeeper.Settings.Source

/-! # The last source that sets a field counts

Sources are laid over each other in the order of their precedence. Every field goes its own way: a
section that a source has without setting the field changes nothing, and neither does one that it
lacks. So a field has the value of the last source that sets it, and its default if there is none.

* `Layer.Field`, `Layer.get`, `Layer.full`: the fields, what a layer sets them to, and the layer
  that sets them all;
* `get_overlay`: what one layer over another sets a field to;
* `filter_inOrder`, `eq_of_parts`: the order of sources is decided by their parts of one precedence;
* `lastSetting`: what the last source that sets a field sets it to;
* `Settings.layered_sources`: loading. -/

namespace WireKeeper

namespace Layer

/-! ## Fields -/

/-- The fields of the four sections, seventeen in all, which sources set one by one. -/
inductive Field where
  | databasePath
  | host
  | path
  | interface
  | address
  | port
  | device
  | allowedIPs
  | persistentKeepalive
  | dns
  | toolTimeout
  | sshPort
  | hostKeyPath
  | adminKeys
  | replaceAdminKeys
  | level
  | format
  deriving DecidableEq

namespace Field

/-- What a field can be set to. Addresses and keys are texts here that have yet to be read. -/
def Value : Field → Type
  | port | persistentKeepalive | sshPort => UInt16
  | toolTimeout => UInt64
  | allowedIPs | dns | adminKeys => List String
  | replaceAdminKeys => Bool
  | format => LogFormat
  | databasePath | host | path | interface | address | device | hostKeyPath | level => String

/-- What a field is when no source sets it. -/
def default : (f : Field) → f.Value
  | databasePath => "/var/lib/wg-wish/wg-wish.db"
  | host => ""
  | path => "/var/lib/wg-wish/wg0.conf"
  | interface => "wg0"
  | address => "10.9.8.1/24"
  | port => (51820 : UInt16)
  | device => "eth0"
  | allowedIPs => ["0.0.0.0/0"]
  | persistentKeepalive => (25 : UInt16)
  | dns => ["1.1.1.1", "8.8.8.8"]
  | toolTimeout => (30 : UInt64)
  | sshPort => (51822 : UInt16)
  | hostKeyPath => "/var/lib/wg-wish/host_ed25519"
  | adminKeys => []
  | replaceAdminKeys => false
  | level => "info"
  | format => LogFormat.pretty

end Field

/-- What a layer sets a field to: nothing if the section is missing, or if it has no such field. -/
def get (l : Layer) : (f : Field) → Option f.Value
  | .databasePath => l.database.bind Database.path
  | .host => l.wireguard.bind Wireguard.host
  | .path => l.wireguard.bind Wireguard.path
  | .interface => l.wireguard.bind Wireguard.interface
  | .address => l.wireguard.bind Wireguard.address
  | .port => l.wireguard.bind Wireguard.port
  | .device => l.wireguard.bind Wireguard.device
  | .allowedIPs => l.wireguard.bind Wireguard.allowedIPs
  | .persistentKeepalive => l.wireguard.bind Wireguard.persistentKeepalive
  | .dns => l.wireguard.bind Wireguard.dns
  | .toolTimeout => l.wireguard.bind Wireguard.toolTimeout
  | .sshPort => l.ssh.bind Ssh.port
  | .hostKeyPath => l.ssh.bind Ssh.hostKeyPath
  | .adminKeys => l.ssh.bind Ssh.adminKeys
  | .replaceAdminKeys => l.ssh.bind Ssh.replaceAdminKeys
  | .level => l.logging.bind Logging.level
  | .format => l.logging.bind Logging.format

/-- The layer that sets every field, each to its `value`. -/
def full (value : (f : Field) → f.Value) : Layer where
  database := some ⟨some (value .databasePath)⟩
  wireguard := some {
    host := some (value .host)
    path := some (value .path)
    interface := some (value .interface)
    address := some (value .address)
    port := some (value .port)
    device := some (value .device)
    allowedIPs := some (value .allowedIPs)
    persistentKeepalive := some (value .persistentKeepalive)
    dns := some (value .dns)
    toolTimeout := some (value .toolTimeout) }
  ssh := some {
    port := some (value .sshPort)
    hostKeyPath := some (value .hostKeyPath)
    adminKeys := some (value .adminKeys)
    replaceAdminKeys := some (value .replaceAdminKeys) }
  logging := some ⟨some (value .level), some (value .format)⟩

/-- The full layer sets each field to its value. -/
@[simp] theorem get_full (value : (f : Field) → f.Value) (f : Field) :
    (full value).get f = some (value f) := by cases f <;> rfl

/-- The empty layer sets no field, since it has no section. -/
@[simp] theorem get_empty (f : Field) : empty.get f = none := by cases f <;> rfl

/-! ## One layer over another -/

/-- A field of two sections, one laid over the other, if it is merged by itself: what the upper
section sets it to, or else what the lower one does. A section that is missing sets no field. -/
theorem bind_overlaySection {α β : Type} {empty : α} {overlay : α → α → α} {field : α → Option β}
    (hempty : field empty = none)
    (hoverlay : ∀ lower upper, field (overlay lower upper) = (field upper).or (field lower))
    (lower upper : Option α) :
    (overlaySection empty overlay lower upper).bind field =
      (upper.bind field).or (lower.bind field) := by
  cases upper with
  | none => rfl
  | some u =>
    show field (overlay (lower.getD empty) u) = (field u).or (lower.bind field)
    rw [hoverlay]
    -- a lower section that is missing is an empty one
    cases lower with
    | none => exact congrArg _ hempty
    | some l => rfl

/-- A field is what the upper layer sets it to, or else what the lower one does: `(upper.get f).or
(lower.get f)`. No other field has a say in it. -/
theorem get_overlay (lower upper : Layer) (f : Field) :
    (lower.overlay upper).get f = (upper.get f).or (lower.get f) := by
  cases f <;> exact bind_overlaySection rfl (fun _ _ => rfl) _ _

/-- A layer means what the full layer means that has a default for each field it does not set. So
the defaults of the settings are those of the fields. -/
theorem ofLayer_full (l : Layer) :
    Settings.ofLayer (full fun f => (l.get f).getD f.default) = Settings.ofLayer l := by
  obtain ⟨database, wireguard, ssh, logging⟩ := l
  generalize hvalue : (fun f => (get ⟨database, wireguard, ssh, logging⟩ f).getD f.default) = value
  have hdatabase : ((full value).database.getD {}).resolve = (database.getD {}).resolve := by
    rw [← hvalue]
    cases database <;> rfl
  have hwireguard : ((full value).wireguard.getD {}).resolve = (wireguard.getD {}).resolve := by
    rw [← hvalue]
    cases wireguard <;> rfl
  have hssh : ((full value).ssh.getD {}).resolve = (ssh.getD {}).resolve := by
    rw [← hvalue]
    cases ssh <;> rfl
  have hlogging : ((full value).logging.getD {}).resolve = (logging.getD {}).resolve := by
    -- a level is written in lower case also where it is the default
    have hlevel : "info".map Char.toLower = "info" := by decide +kernel
    rw [← hvalue]
    cases logging with
    | none => exact congrArg (LoggingSettings.mk · .pretty) hlevel
    | some g =>
      obtain ⟨level, format⟩ := g
      cases level with
      | none => exact congrArg (LoggingSettings.mk · (format.getD .pretty)) hlevel
      | some level => rfl
  rw [Settings.ofLayer, Settings.ofLayer, resolve, resolve, hdatabase, hwireguard, hssh, hlogging]

end Layer

namespace Source

variable {sources front back : List Source} {disk : Disk} {s : Source} {e : SettingsError}

/-! ## The order of sources -/

section Parts

variable {α : Type} {key : α → Nat} {l l' : List α}

/-- What is in a list is in every list with the same parts of one key each. -/
theorem mem_of_parts
    (hparts : ∀ k, l.filter (fun a => key a = k) = l'.filter (fun a => key a = k)) {a : α}
    (ha : a ∈ l) : a ∈ l' := by
  have hpart : a ∈ l.filter fun b => key b = key a :=
    List.mem_filter.2 ⟨ha, decide_eq_true rfl⟩
  rw [hparts] at hpart
  exact (List.mem_filter.1 hpart).1

/-- A list in the order of a key is decided by its parts of one key each: two such lists with the
same parts are equal. -/
theorem eq_of_parts (hl : l.Pairwise fun a b => key a ≤ key b)
    (hl' : l'.Pairwise fun a b => key a ≤ key b)
    (hparts : ∀ k, l.filter (fun a => key a = k) = l'.filter (fun a => key a = k)) : l = l' := by
  induction l generalizing l' with
  | nil =>
    exact (List.eq_nil_iff_forall_not_mem.2 fun a ha =>
      nomatch mem_of_parts (fun k => (hparts k).symm) ha).symm
  | cons a as ih =>
    cases l' with
    | nil => exact absurd (mem_of_parts hparts List.mem_cons_self) List.not_mem_nil
    | cons b bs =>
      obtain ⟨ha, has⟩ := List.pairwise_cons.1 hl
      obtain ⟨hb, hbs⟩ := List.pairwise_cons.1 hl'
      -- the two first items have the least key, and so they are the first of the same part
      have hab : key a ≤ key b := by
        rcases List.mem_cons.1 (mem_of_parts (fun k => (hparts k).symm) List.mem_cons_self) with
          h | h
        · exact Nat.le_of_eq (congrArg key h).symm
        · exact ha b h
      have hba : key b ≤ key a := by
        rcases List.mem_cons.1 (mem_of_parts hparts List.mem_cons_self) with h | h
        · exact Nat.le_of_eq (congrArg key h).symm
        · exact hb a h
      have hkey : key b = key a := Nat.le_antisymm hba hab
      have hfirst := hparts (key a)
      rw [List.filter_cons, List.filter_cons, if_pos (decide_eq_true rfl),
        if_pos (decide_eq_true hkey)] at hfirst
      obtain ⟨rfl, -⟩ := List.cons.inj hfirst
      have hrest : ∀ k, as.filter (fun c => key c = k) = bs.filter fun c => key c = k := by
        intro k
        have hk := hparts k
        rw [List.filter_cons, List.filter_cons] at hk
        split at hk
        · exact (List.cons.inj hk).2
        · exact hk
      rw [ih has hbs hrest]

end Parts

/-- Whether a source may stand before another one: if its precedence is no higher. -/
def mayPrecede (a b : Source) : Bool := decide (a.precedence ≤ b.precedence)

/-- What may stand in front of a source may stand in front of what that may precede. -/
theorem mayPrecede_trans (a b c : Source) (hab : mayPrecede a b = true)
    (hbc : mayPrecede b c = true) : mayPrecede a c = true :=
  decide_eq_true (Nat.le_trans (of_decide_eq_true hab) (of_decide_eq_true hbc))

/-- Of two sources, one may precede the other; both may if they have one precedence. -/
theorem mayPrecede_total (a b : Source) : (mayPrecede a b || mayPrecede b a) = true := by
  rcases Nat.le_total a.precedence b.precedence with h | h
  · simp [mayPrecede, h]
  · simp [mayPrecede, h]

/-- Sources are read in the order of their precedence, the lowest one first. -/
theorem pairwise_inOrder (sources : List Source) :
    (inOrder sources).Pairwise fun a b => a.precedence ≤ b.precedence :=
  (List.pairwise_mergeSort mayPrecede_trans mayPrecede_total sources).imp of_decide_eq_true

/-- Sources of one precedence are in the order in which they were given, since sorting is stable. -/
theorem filter_inOrder (sources : List Source) (k : Nat) :
    (inOrder sources).filter (fun s => s.precedence = k) =
      sources.filter fun s => s.precedence = k := by
  -- the part is in order already, so that sorting leaves it as it is
  have hordered : (sources.filter fun s => s.precedence = k).Pairwise fun a b => mayPrecede a b :=
    List.pairwise_filter.2 <| List.pairwise_of_forall fun a b ha hb =>
      decide_eq_true (Nat.le_of_eq ((of_decide_eq_true ha).trans (of_decide_eq_true hb).symm))
  have hsublist := (List.sublist_mergeSort mayPrecede_trans mayPrecede_total hordered
    List.filter_sublist).filter fun s => decide (s.precedence = k)
  rw [List.filter_filter] at hsublist
  simp only [Bool.and_self] at hsublist
  refine (hsublist.eq_of_length ?_).symm
  exact ((List.mergeSort_perm sources mayPrecede).filter _).length_eq.symm

/-- Sources with the same parts of one precedence each have the same order. This says which
permutations of sources do not matter. -/
theorem inOrder_congr {sources' : List Source}
    (hparts : ∀ k, sources'.filter (fun s => s.precedence = k) =
      sources.filter fun s => s.precedence = k) : inOrder sources' = inOrder sources :=
  eq_of_parts (pairwise_inOrder sources') (pairwise_inOrder sources) fun k => by
    rw [filter_inOrder, filter_inOrder, hparts]

/-- Sources that are in the order of their precedence stay as they are. -/
theorem inOrder_of_pairwise (h : sources.Pairwise fun a b => a.precedence ≤ b.precedence) :
    inOrder sources = sources :=
  List.mergeSort_of_pairwise (h.imp decide_eq_true)

/-- A source that is the only one of its precedence can be given last as well as first: no part of
one precedence is another one then. -/
theorem filter_moved (sources : List Source) (s : Source)
    (h : ∀ t ∈ sources, t.precedence ≠ s.precedence) (k : Nat) :
    (sources ++ [s]).filter (fun t => t.precedence = k) =
      (s :: sources).filter fun t => t.precedence = k := by
  rw [List.filter_append, List.filter_cons, List.filter_cons, List.filter_nil]
  split
  next hs =>
    have hnone : (sources.filter fun t => t.precedence = k) = [] :=
      List.filter_eq_nil_iff.2 fun t ht htk =>
        h t ht ((of_decide_eq_true htk).trans (of_decide_eq_true hs).symm)
    rw [hnone]
    rfl
  next => exact List.append_nil _

/-- The order holds the sources that were given, and no others. -/
theorem mem_inOrder : s ∈ inOrder sources ↔ s ∈ sources :=
  (List.mergeSort_perm sources mayPrecede).mem_iff

/-! ## Laying sources over each other -/

/-- What a source sets a field to: nothing if it does not set the field, or cannot be read. -/
def setting? (disk : Disk) (f : Layer.Field) (s : Source) : Option f.Value :=
  (s.load disk).toOption.bind fun l => l.get f

/-- What the last of some sources that sets a field sets it to, or nothing if none of them does. -/
def lastSetting (disk : Disk) (sources : List Source) (f : Layer.Field) : Option f.Value :=
  sources.reverse.findSome? (setting? disk f)

/-- The first of some sources counts only if none behind it sets the field. -/
theorem lastSetting_cons (f : Layer.Field) :
    lastSetting disk (s :: sources) f = (lastSetting disk sources f).or (setting? disk f s) := by
  rw [lastSetting, List.reverse_cons, List.findSome?_append, List.findSome?_singleton]
  rfl

/-- Laying sources over a layer goes on behind the first one with that laid over it, unless it
cannot be read. -/
theorem layAll_cons (base : Layer) :
    layAll disk (s :: sources) base =
      match s.load disk with
      | .ok l => layAll disk sources (base.overlay l)
      | .error e => .error e := by
  rw [layAll, List.foldlM_cons]
  cases s.load disk <;> rfl

/-- If all sources are read, each field is what the last of them sets it to, or else what it was in
the layer that they are laid over. -/
theorem exists_layAll (h : ∀ s ∈ sources, ∃ l, s.load disk = .ok l) (base : Layer) :
    ∃ l, layAll disk sources base = .ok l ∧
      ∀ f, l.get f = (lastSetting disk sources f).or (base.get f) := by
  -- the layer grows from source to source
  induction sources generalizing base with
  | nil => exact ⟨base, rfl, fun f => rfl⟩
  | cons s ss ih =>
    obtain ⟨l₁, hload⟩ := h s List.mem_cons_self
    obtain ⟨l, hl, hget⟩ := ih (fun t ht => h t (List.mem_cons_of_mem s ht)) (base.overlay l₁)
    refine ⟨l, ?_, fun f => ?_⟩
    · rw [layAll_cons, hload]
      exact hl
    · rw [hget, Layer.get_overlay, lastSetting_cons, setting?, hload, Option.or_assoc]
      rfl

/-- The first source that is not read decides on the error, whatever stands behind it. -/
theorem layAll_eq_error (hfront : ∀ t ∈ front, ∃ l, t.load disk = .ok l)
    (hload : s.load disk = .error e) (base : Layer) :
    layAll disk (front ++ s :: back) base = .error e := by
  induction front generalizing base with
  | nil => rw [List.nil_append, layAll_cons, hload]
  | cons t ts ih =>
    obtain ⟨l, hl⟩ := hfront t List.mem_cons_self
    rw [List.cons_append, layAll_cons, hl]
    exact ih (fun u hu => hfront u (List.mem_cons_of_mem t hu)) _

end Source

namespace Settings

open Source (inOrder lastSetting)

/-- What comes of loading settings from sources: their order, the error, and the value of each
field. -/
structure Layered (disk : Disk) (sources : List Source) : Prop where
  /-- The sources are read in the order of their precedence. -/
  ordered : (inOrder sources).Pairwise fun a b => a.precedence ≤ b.precedence
  /-- Those of one precedence keep the order in which they were given. -/
  stable : ∀ k, (inOrder sources).filter (fun s => s.precedence = k) =
    sources.filter fun s => s.precedence = k
  /-- The first source that cannot be read decides on the error. -/
  first_failure : ∀ front s back e, inOrder sources = front ++ s :: back →
    (∀ t ∈ front, ∃ l, t.load disk = .ok l) → s.load disk = .error e →
    load disk sources = .error e
  /-- If all can be read, the settings are read from the values of all fields: each is what the last
  source that sets the field sets it to, or the default if none does. -/
  last_setter : (∀ s ∈ sources, ∃ l, s.load disk = .ok l) →
    load disk sources =
      ofLayer (.full fun f => (lastSetting disk (inOrder sources) f).getD f.default)
  /-- The order of sources of different precedence does not matter. -/
  permuted : ∀ sources' : List Source,
    (∀ k, sources'.filter (fun s => s.precedence = k) =
      sources.filter fun s => s.precedence = k) →
    load disk sources' = load disk sources

/-- **The last source that sets a field counts.** Whatever sources are given, and in whatever
order: they are read in the order of their precedence, the first one that cannot be read decides on
the error, and otherwise each field is what the last one sets it to that sets it at all. -/
theorem layered_sources (disk : Disk) (sources : List Source) : Layered disk sources where
  ordered := Source.pairwise_inOrder sources
  stable := Source.filter_inOrder sources
  first_failure front s back e horder hfront hload := by
    rw [load, horder, Source.layAll_eq_error hfront hload]
    rfl
  last_setter hloads := by
    obtain ⟨l, hl, hget⟩ := Source.exists_layAll
      (fun s hs => hloads s (Source.mem_inOrder.1 hs)) Layer.empty
    have hvalues : (fun f => (lastSetting disk (inOrder sources) f).getD f.default) =
        fun f => (l.get f).getD f.default := by
      funext f
      rw [hget, Layer.get_empty, Option.or_none]
    rw [load, hl, hvalues, Layer.ofLayer_full]
    rfl
  permuted sources' hparts := by rw [load, load, Source.inOrder_congr hparts]

/-- Variables that name a host and a port. -/
def namingHost : Environment := fun name =>
  if name = "WGWISH_WIREGUARD_HOST" then some "a.example"
  else if name = "WGWISH_WIREGUARD_PORT" then some "51000"
  else none

/-- Variables that name another host and some port. -/
def namingOther (port : String) : Environment := fun name =>
  if name = "WGWISH_WIREGUARD_HOST" then some "b.example"
  else if name = "WGWISH_WIREGUARD_PORT" then some port
  else none

/-- The later of two environments counts, but not for the port, which it leaves empty. If the port
is no number there, the file is reported all the same that is missing, although it was
given last. -/
theorem layered_sources_environments :
    (load {} [.environment namingHost, .environment (namingOther ""), .defaults]).toOption.map
        (fun s => (s.wireguard.host, s.wireguard.port, s.wireguard.device)) =
      some ("b.example", 51000, "eth0") ∧
    load {} [.environment namingHost, .environment (namingOther "lots"), .file "/wish.toml" true] =
      .error (.unreadable "/wish.toml" (.disk .notFound)) := by
  constructor
  · have hlayered := layered_sources {} [.defaults, .environment namingHost,
      .environment (namingOther "")]
    have hloads : ∀ s ∈ [Source.defaults, .environment namingHost, .environment (namingOther "")],
        ∃ l, s.load {} = .ok l := by
      intro s hs
      simp only [List.mem_cons, List.not_mem_nil, or_false] at hs
      obtain rfl | rfl | rfl := hs
      · exact ⟨_, rfl⟩
      · exact ⟨_, rfl⟩
      · exact ⟨_, rfl⟩
    have hload := hlayered.last_setter hloads
    rw [Source.inOrder_of_pairwise (by decide +kernel)] at hload
    have hmoved : load {} [.environment namingHost, .environment (namingOther ""), .defaults] =
        load {} [.defaults, .environment namingHost, .environment (namingOther "")] :=
      hlayered.permuted _ (Source.filter_moved
        [.environment namingHost, .environment (namingOther "")] .defaults (by decide +kernel))
    rw [hmoved, hload]
    decide +kernel
  · have hlayered := layered_sources {} [.file "/wish.toml" true, .environment namingHost,
      .environment (namingOther "lots")]
    refine (hlayered.permuted _ (Source.filter_moved
      [.environment namingHost, .environment (namingOther "lots")] _ (by decide +kernel))).trans ?_
    exact hlayered.first_failure [] _ _ _ (Source.inOrder_of_pairwise (by decide +kernel)) nofun rfl

end Settings

end WireKeeper
