import WireKeeper.Proofs.Bytes.Utf8
import WireKeeper.Proofs.Record.RoundTrip
import WireKeeper.Proofs.Store.Rows
import WireKeeper.Store.Records

/-! # Rows of peers

What the rows of the peers say: a row **holds** a peer when it stands under the name of the peer and
is read as that peer.

* `Rows.Holds`: the peers that rows hold, at most one of each name;
* `Rows.Readable`: every row is read, so that every row holds a peer;
* `Rows.Written`: every row was written from a peer;
* `holds_insert`, `holds_erase`, `mem_iff_holds`: adding, removing and listing peers. -/

namespace WireKeeper

/-- Different names have different keys. -/
theorem Peers.key_inj {a b : String} : Peers.key a = Peers.key b ↔ a = b := Utf8.ofString_inj

/-- A row is read as a peer if and only if it stands under its name and is read as it. -/
theorem Peers.ofRow_eq_ok {r : Row} {p : PeerIdentity} :
    Peers.ofRow r = .ok p ↔ r.1 = key p.name ∧ PeerIdentity.decode p.name r.2 = .ok p := by
  constructor
  · intro h
    rw [ofRow] at h
    split at h
    · next name hname =>
      have hp : p.name = String.ofList name := (PeerIdentity.of_decode h).1
      rw [hp, key, Utf8.ofString_of_decode hname]
      exact ⟨rfl, h⟩
    · cases h
  · rintro ⟨hkey, hp⟩
    -- the key is the name as bytes, so it is read as the name again
    rw [ofRow, hkey, key, Utf8.ofString, Utf8.decode_encode]
    show PeerIdentity.decode (String.ofList p.name.toList) r.2 = _
    rw [String.ofList_toList, hp]

namespace Rows

/-- The row under the name of a peer is read as that peer. -/
def Holds (rows : Rows) (p : PeerIdentity) : Prop :=
  ∃ value, rows.get? (Peers.key p.name) = some value ∧ PeerIdentity.decode p.name value = .ok p

/-- Every row is read as a peer, so every row is held to be some peer. -/
def Readable (rows : Rows) : Prop := ∀ r ∈ rows.toList, ∃ p, Peers.ofRow r = .ok p

/-- Every row was written from a peer: it has the bytes that the peer is encoded to. -/
def Written (rows : Rows) : Prop :=
  ∀ r ∈ rows.toList, ∃ p : PeerIdentity, r = (Peers.key p.name, p.encode)

variable {rows : Rows} {p q : PeerIdentity} {name : String} {value : Bytes}

/-- A row that is read under a name holds a peer of that name. -/
theorem holds_of_decode (hget : rows.get? (Peers.key name) = some value)
    (h : PeerIdentity.decode name value = .ok p) : p.name = name ∧ rows.Holds p := by
  obtain rfl := (PeerIdentity.of_decode h).1
  exact ⟨rfl, value, hget, h⟩

/-- The row of a peer that is held is read as that peer, under its name. -/
theorem Holds.decode (h : rows.Holds p) (hname : p.name = name)
    (hget : rows.get? (Peers.key name) = some value) : PeerIdentity.decode name value = .ok p := by
  subst hname
  obtain ⟨v, hv, hp⟩ := h
  cases hget.symm.trans hv
  exact hp

/-- There is one peer of each name at most. -/
theorem Holds.eq (hp : rows.Holds p) (hq : rows.Holds q) (hname : p.name = q.name) : p = q := by
  obtain ⟨v, hv, hq⟩ := hq
  cases (hp.decode hname hv).symm.trans hq
  rfl

/-- A peer that is held can be written again, since what was read can be counted. -/
theorem Holds.countable (h : rows.Holds p) : p.Countable := by
  obtain ⟨v, -, hp⟩ := h
  exact (PeerIdentity.of_decode hp).2

/-- After a peer was added, any other that is held was held before. The new one need not be
countable. -/
theorem of_holds_insert (h : (rows.insert (Peers.key p.name) p.encode).Holds q) :
    q = p ∨ rows.Holds q := by
  obtain ⟨value, hget, hq⟩ := h
  rw [get?_insert] at hget
  split at hget
  · next hkey =>
    cases hget
    have hname := Peers.key_inj.1 hkey
    rw [PeerIdentity.eq_of_decode_encode hq, hname]
    exact .inl rfl
  · exact .inr ⟨value, hget, hq⟩

/-- Adding a peer that can be counted: it takes the place of any other of its name, and the others
stay. -/
theorem holds_insert (hp : p.Countable) :
    (rows.insert (Peers.key p.name) p.encode).Holds q ↔
      q = p ∨ q.name ≠ p.name ∧ rows.Holds q := by
  rw [Holds, get?_insert]
  by_cases hname : q.name = p.name
  · rw [if_pos (congrArg Peers.key hname)]
    constructor
    · rintro ⟨v, hv, hq⟩
      cases hv
      rw [hname, PeerIdentity.decode_encode hp] at hq
      exact .inl (Except.ok.inj hq).symm
    · rintro (rfl | ⟨hne, -⟩)
      · exact ⟨_, rfl, PeerIdentity.decode_encode hp _⟩
      · exact absurd hname hne
  · rw [if_neg fun h => hname (Peers.key_inj.1 h)]
    constructor
    · exact fun h => .inr ⟨hname, h⟩
    · rintro (rfl | ⟨-, h⟩)
      · exact absurd rfl hname
      · exact h

/-- Adding a peer under a new name loses none that is held. -/
theorem Holds.insert_new (h : rows.Holds p) (hq : q.Countable)
    (hnew : rows.get? (Peers.key q.name) = none) :
    (rows.insert (Peers.key q.name) q.encode).Holds p := by
  refine (holds_insert hq).2 (.inr ⟨fun hname => ?_, h⟩)
  obtain ⟨value, hget, -⟩ := h
  rw [hname, hnew] at hget
  cases hget

/-- Writing a peer anew that is held makes no difference to any peer, though the row may have been
written otherwise. -/
theorem holds_insert_of_holds (h : rows.Holds p) :
    (rows.insert (Peers.key p.name) p.encode).Holds q ↔ rows.Holds q := by
  rw [holds_insert h.countable]
  constructor
  · rintro (rfl | ⟨-, hq⟩)
    · exact h
    · exact hq
  · intro hq
    by_cases hname : q.name = p.name
    · exact .inl (hq.eq h hname)
    · exact .inr ⟨hname, hq⟩

/-- Removing a peer leaves those of other names, and no others. -/
theorem holds_erase : (rows.erase (Peers.key name)).Holds q ↔ q.name ≠ name ∧ rows.Holds q := by
  rw [Holds, get?_erase]
  by_cases hname : q.name = name
  · rw [if_pos (congrArg Peers.key hname)]
    constructor
    · rintro ⟨v, hv, -⟩
      cases hv
    · exact fun h => absurd hname h.1
  · rw [if_neg fun h => hname (Peers.key_inj.1 h)]
    exact ⟨fun h => ⟨hname, h⟩, fun h => h.2⟩

/-- A row that is there holds a peer of its name, if every row is read. -/
theorem Readable.holds (h : rows.Readable) (hget : rows.get? (Peers.key name) = some value) :
    ∃ p, p.name = name ∧ rows.Holds p := by
  obtain ⟨p, hp⟩ := h _ (get?_eq_some_iff.1 hget)
  obtain ⟨hkey, hp⟩ := Peers.ofRow_eq_ok.1 hp
  cases Peers.key_inj.1 hkey
  exact ⟨p, rfl, value, hget, hp⟩

/-- Rows stay readable when a peer is added that can be counted. -/
theorem Readable.insert (h : rows.Readable) (hp : p.Countable) :
    (rows.insert (Peers.key p.name) p.encode).Readable := by
  intro r hr
  rcases mem_insertRow hr with rfl | hr
  · exact ⟨p, Peers.ofRow_eq_ok.2 ⟨rfl, PeerIdentity.decode_encode hp _⟩⟩
  · exact h r hr

/-- A peer whose lists cannot be counted makes rows unreadable when it is added. -/
theorem Readable.countable (h : (rows.insert (Peers.key p.name) p.encode).Readable) :
    p.Countable := by
  have hget := get?_insert_self rows (Peers.key p.name) p.encode
  obtain ⟨q, hname, hq⟩ := h.holds hget
  have hdecode := hq.decode hname hget
  rw [PeerIdentity.eq_of_decode_encode hdecode] at hq
  exact hq.countable

/-- Rows stay readable when one is removed, whichever it is. -/
theorem Readable.erase (h : rows.Readable) (key : Bytes) : (rows.erase key).Readable :=
  fun r hr => h r (List.mem_of_mem_filter hr)

/-- Rows that differ in one place from readable ones are readable, if what stands there is read. -/
theorem Readable.of_others {others : Rows} {key : Bytes} (h : others.Readable)
    (heq : ∀ k, k ≠ key → others.get? k = rows.get? k)
    (hread : ∀ v, rows.get? key = some v → ∃ p, Peers.ofRow (key, v) = .ok p) :
    rows.Readable := by
  rintro ⟨k, v⟩ hr
  have hget := get?_eq_some_iff.2 hr
  by_cases hkey : k = key
  · subst hkey
    exact hread v hget
  · exact h _ (get?_eq_some_iff.1 ((heq k hkey).trans hget))

/-- All peers are read together if every row is. -/
theorem Readable.exists_all (h : rows.Readable) : ∃ ps, rows.toList.mapM Peers.ofRow = .ok ps :=
  exists_mapM_ok h

/-- Every row is read if all peers are read together. -/
theorem readable_of_all {ps : List PeerIdentity} (h : rows.toList.mapM Peers.ofRow = .ok ps) :
    rows.Readable := exists_of_mapM_ok h

/-- All peers that are read together are those that are held, and no others. -/
theorem mem_iff_holds {ps : List PeerIdentity} (h : rows.toList.mapM Peers.ofRow = .ok ps) :
    p ∈ ps ↔ rows.Holds p := by
  rw [mem_of_mapM_ok h]
  constructor
  · rintro ⟨⟨key, value⟩, hr, hp⟩
    obtain ⟨hkey, hp⟩ := Peers.ofRow_eq_ok.1 hp
    cases hkey
    exact ⟨value, get?_eq_some_iff.2 hr, hp⟩
  · rintro ⟨value, hget, hp⟩
    exact ⟨_, get?_eq_some_iff.1 hget, Peers.ofRow_eq_ok.2 ⟨rfl, hp⟩⟩

/-- All peers stand in the order of the rows, each under its name. -/
theorem map_key_of_all {ps : List PeerIdentity} (h : rows.toList.mapM Peers.ofRow = .ok ps) :
    ps.map (fun p => Peers.key p.name) = rows.keys :=
  map_of_mapM_ok (fun _ _ hp => (Peers.ofRow_eq_ok.1 hp).1.symm) h

/-- All peers have different names, since the rows have different keys. -/
theorem nodup_names {ps : List PeerIdentity} (h : rows.toList.mapM Peers.ofRow = .ok ps) :
    (ps.map PeerIdentity.name).Nodup := by
  have hnodup := rows.keys_nodup
  rw [← map_key_of_all h, List.nodup_iff_pairwise_ne, List.pairwise_map] at hnodup
  rw [List.nodup_iff_pairwise_ne, List.pairwise_map]
  exact hnodup.imp fun hne hname => hne (congrArg Peers.key hname)

/-- A row that was written is the one that its own peer, once read, would write again. -/
theorem Written.encode_eq (h : rows.Written) (hget : rows.get? (Peers.key name) = some value)
    (hp : PeerIdentity.decode name value = .ok p) : p.encode = value := by
  obtain ⟨q, hq⟩ := h _ (get?_eq_some_iff.1 hget)
  obtain ⟨hkey, rfl⟩ := Prod.mk.inj hq
  cases Peers.key_inj.1 hkey
  rw [PeerIdentity.eq_of_decode_encode hp]

end Rows

end WireKeeper
