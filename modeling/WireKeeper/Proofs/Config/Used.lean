import WireKeeper.Config.Client
import WireKeeper.Config.Server
import WireKeeper.Proofs.Basic
import WireKeeper.Proofs.Config.Section

/-! # What a format uses of its sections

A configuration is read from the titles and comments of its sections and from the values of a few
keys in each. Sections that agree on these are read as the same configuration, whatever other
entries they have, in whatever order their keys stand, and however these are spelled.

* `Server.used`, `Client.used`: the keys that count;
* `Section.Agrees`: sections that are the same to a format;
* `Server.ofSections_congr`, `Client.ofSections_congr`: they are read as the same configuration. -/

namespace WireKeeper.Config

/-- The keys that the configuration of a server is read from, by the title of the section; sections
with other titles are not looked into. -/
def Server.used (title : List Char) : List String :=
  if title = "Interface".toList then ["Address", "ListenPort", "PrivateKey", "PostUp", "PostDown"]
  else if title = "Peer".toList then ["PublicKey", "AllowedIPs"]
  else []

/-- The keys that the configuration of a client is read from, by the title of the section; sections
with other titles are not looked into. -/
def Client.used (title : List Char) : List String :=
  if title = "Interface".toList then ["Address", "PrivateKey", "DNS"]
  else if title = "Peer".toList then ["Endpoint", "PublicKey", "AllowedIPs", "PersistentKeepalive"]
  else []

namespace Section

variable {used : List Char → List String} {s s' : Section} {ss ss' : List Section}

/-- Two sections that are the same to a format: with one title and one comment, and with the same
values of all keys that count under this title. -/
structure Agrees (used : List Char → List String) (s s' : Section) : Prop where
  title : s'.title = s.title
  comment : s'.comment = s.comment
  values : ∀ key ∈ used s.title, s'.all key = s.all key

/-- A section is the same as itself, to every format. -/
instance (used : List Char → List String) : Std.Refl (Agrees used) :=
  ⟨fun _ => ⟨rfl, rfl, fun _ _ => rfl⟩⟩

/-- The last value of a key is the same if all are. -/
theorem get?_congr {key : String} (h : s'.all key = s.all key) : s'.get? key = s.get? key := by
  rw [get?, get?, h]

/-- A value that must be there is the same, or is missing in both with the same error. -/
theorem require_congr {key : String} (h : s'.all key = s.all key) (title : String) :
    s'.require title key = s.require title key := by
  rw [require, require, get?_congr h]

/-- A number is the same, or fails in both with the same error. -/
theorem readPort?_congr {key : String} (h : s'.all key = s.all key) :
    s'.readPort? key = s.readPort? key := by
  rw [readPort?, readPort?, get?_congr h]

/-- The sections with a title agree if all sections do, as sections that agree have one title. -/
theorem forall₂_titled (h : List.Forall₂ (Agrees used) ss ss') (title : String) :
    List.Forall₂ (fun s s' => s.title = title.toList ∧ Agrees used s s') (titled ss title)
      (titled ss' title) := by
  induction h with
  | nil => exact .nil
  | @cons s s' ss ss' hs hss ih =>
    by_cases htitle : s.title = title.toList
    · rw [titled_cons_same htitle, titled_cons_same (hs.title.trans htitle)]
      exact .cons ⟨htitle, hs⟩ ih
    · rw [titled_cons_other htitle, titled_cons_other fun h => htitle (hs.title.symm.trans h)]
      exact ih

/-- Either both lists have a first section with a title, and the two agree, or none has and both
fail alike. -/
theorem first_cases (h : List.Forall₂ (Agrees used) ss ss') (title : String) :
    (∃ s s', first ss title = .ok s ∧ first ss' title = .ok s' ∧ s.title = title.toList ∧
      Agrees used s s') ∨
    ∃ e, first ss title = .error e ∧ first ss' title = .error e := by
  have htitled := forall₂_titled h title
  rw [first, first]
  generalize titled ss title = l, titled ss' title = l' at htitled
  cases htitled with
  | nil => exact .inr ⟨_, rfl, rfl⟩
  | cons hs => exact .inl ⟨_, _, rfl, rfl, hs.1, hs.2⟩

end Section

variable {s s' : Section} {ss ss' : List Section}

namespace Server

/-- Sections that agree are read as the same interface of a server, or fail with the same error. -/
theorem readInterface_congr (htitle : s.title = "Interface".toList)
    (h : Section.Agrees used s s') : readInterface s' = readInterface s := by
  have hvalues : ∀ key ∈ used "Interface".toList, s'.all key = s.all key := htitle ▸ h.values
  have haddress := Section.require_congr (hvalues "Address" (by decide)) "Interface"
  have hport := Section.readPort?_congr (hvalues "ListenPort" (by decide))
  have hkey := Section.require_congr (hvalues "PrivateKey" (by decide)) "Interface"
  rw [readInterface, readInterface, haddress, hport, hkey, hvalues "PostUp" (by decide),
    hvalues "PostDown" (by decide), h.comment]

/-- Sections that agree are read as the same peer of a server, or fail with the same error. -/
theorem readPeer_congr (htitle : s.title = "Peer".toList) (h : Section.Agrees used s s') :
    readPeer s' = readPeer s := by
  have hvalues : ∀ key ∈ used "Peer".toList, s'.all key = s.all key := htitle ▸ h.values
  have hkey := Section.require_congr (hvalues "PublicKey" (by decide)) "Peer"
  have hips := Section.require_congr (hvalues "AllowedIPs" (by decide)) "Peer"
  rw [readPeer, readPeer, hkey, hips, h.comment]

/-- Sections that agree are read as the same configuration of a server: `ofSections ss' = ofSections
ss`, errors included. -/
theorem ofSections_congr (h : List.Forall₂ (Section.Agrees used) ss ss') :
    ofSections ss' = ofSections ss := by
  have hpeers : (Section.titled ss' "Peer").mapM readPeer =
      (Section.titled ss "Peer").mapM readPeer :=
    mapM_congr_forall₂ <| (Section.forall₂_titled h "Peer").imp fun _ _ hs =>
      readPeer_congr hs.1 hs.2
  rw [ofSections, ofSections, hpeers]
  obtain ⟨s, s', hs, hs', htitle, hagrees⟩ | ⟨e, he, he'⟩ := Section.first_cases h "Interface"
  · rw [hs, hs']
    simp only [bind, Except.bind, readInterface_congr htitle hagrees]
  · rw [he, he']

end Server

namespace Client

/-- Sections that agree are read as the same interface of a client, or fail with the same error. -/
theorem readInterface_congr (htitle : s.title = "Interface".toList)
    (h : Section.Agrees used s s') : readInterface s' = readInterface s := by
  have hvalues : ∀ key ∈ used "Interface".toList, s'.all key = s.all key := htitle ▸ h.values
  have haddress := Section.require_congr (hvalues "Address" (by decide)) "Interface"
  have hkey := Section.require_congr (hvalues "PrivateKey" (by decide)) "Interface"
  have hdns := Section.get?_congr (hvalues "DNS" (by decide))
  rw [readInterface, readInterface, haddress, hkey, hdns, h.comment]

/-- Sections that agree are read as the same server of a client, or fail with the same error. -/
theorem readPeer_congr (htitle : s.title = "Peer".toList) (h : Section.Agrees used s s') :
    readPeer s' = readPeer s := by
  have hvalues : ∀ key ∈ used "Peer".toList, s'.all key = s.all key := htitle ▸ h.values
  have hendpoint := Section.require_congr (hvalues "Endpoint" (by decide)) "Peer"
  have hkey := Section.require_congr (hvalues "PublicKey" (by decide)) "Peer"
  have hips := Section.require_congr (hvalues "AllowedIPs" (by decide)) "Peer"
  have hkeepalive := Section.readPort?_congr (hvalues "PersistentKeepalive" (by decide))
  rw [readPeer, readPeer, hendpoint, hkey, hips, hkeepalive, h.comment]

/-- Sections that agree are read as the same configuration of a client: `ofSections ss' = ofSections
ss`, errors included. -/
theorem ofSections_congr (h : List.Forall₂ (Section.Agrees used) ss ss') :
    ofSections ss' = ofSections ss := by
  rw [ofSections, ofSections]
  obtain ⟨s, s', hs, hs', htitle, hagrees⟩ | ⟨e, he, he'⟩ := Section.first_cases h "Interface"
  · obtain ⟨p, p', hp, hp', hpeer, hpagrees⟩ | ⟨e, he, he'⟩ := Section.first_cases h "Peer"
    · rw [hs, hs', hp, hp']
      simp only [bind, Except.bind, readInterface_congr htitle hagrees,
        readPeer_congr hpeer hpagrees]
    · rw [hs, hs', he, he']
      rfl
  · rw [he, he']
    rfl

end Client

end WireKeeper.Config
