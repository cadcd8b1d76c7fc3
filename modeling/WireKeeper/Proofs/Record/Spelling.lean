import WireKeeper.Proofs.MessagePack.Spelling
import WireKeeper.Proofs.Net.RawPairs
import WireKeeper.Proofs.Record.RoundTrip

/-! # Other spellings of a peer

Stored values of peers need not be the ones that are written today. Each string of bytes may be an
array of numbers, and a 32-bit net may be kept with a mask of sixteen bytes or with a mapped
address. All spellings of a peer are read as that peer, so that writing it again gives the value of
today.

* `NetForm`: the pairs of bytes that stand for a net, which are narrowed to the pair of the net;
* `NetSpelling`, `PeerIdentity.Spelling`: the spellings of a net and of the fields of a peer;
* `PeerIdentity.decode_spelling`: all of them are read as the peer. -/

namespace WireKeeper

open MessagePack

namespace Record

/-! ## Nets -/

/-- The pairs of address and mask that stand for a net. Only a 32-bit net has more than one, and
only one of the two is kept in sixteen bytes. -/
inductive NetForm (net : Net) : Bytes × Bytes → Prop
  | plain : NetForm net net.toRaw
  | wideMask (hfamily : net.address.family = .v4) :
      NetForm net (net.toRaw.1, List.replicate 12 0xFF ++ net.toRaw.2)
  | mappedAddress (hfamily : net.address.family = .v4) :
      NetForm net (Net.mappedStart ++ net.toRaw.1, net.toRaw.2)

/-- The spellings of a net: the strings of one of its pairs, each spelled by itself. -/
inductive NetSpelling (net : Net) : Bytes → Prop
  | mk {raw : Bytes × Bytes} {address mask : Bytes} (hform : NetForm net raw)
      (haddress : BytesSpelling raw.1 address) (hmask : BytesSpelling raw.2 mask) :
      NetSpelling net (writeArray [address, mask])

variable {net : Net} {raw : Bytes × Bytes}

/-- The parts of a 32-bit net have four bytes each. -/
theorem length_toRaw_of_v4 (hfamily : net.address.family = .v4) :
    net.toRaw.1.length = 4 ∧ net.toRaw.2.length = 4 := by
  rw [Net.toRaw, Address.length_toBytes, Bytes.length_ofNat, hfamily]
  exact ⟨rfl, rfl⟩

/-- Every pair that stands for a net is narrowed to the pair of the net: `Net.narrowRaw raw.1 raw.2
= net.toRaw`. -/
theorem NetForm.narrowRaw_eq (h : NetForm net raw) : Net.narrowRaw raw.1 raw.2 = net.toRaw := by
  cases h with
  | plain =>
    refine Net.narrowRaw_of_length_eq ?_
    rw [Net.toRaw, Address.length_toBytes, Bytes.length_ofNat]
  | wideMask hfamily =>
    obtain ⟨haddress, hmask⟩ := length_toRaw_of_v4 hfamily
    exact (Net.Narrows.wideMask haddress hmask).eq
  | mappedAddress hfamily =>
    obtain ⟨haddress, hmask⟩ := length_toRaw_of_v4 hfamily
    exact (Net.Narrows.mappedAddress haddress hmask).eq

/-- Every pair that stands for a net is read as the net. -/
theorem NetForm.readNet_eq (h : NetForm net raw) : readNet raw = .ok net := by
  have hnarrow : Net.narrowRaw raw.1 raw.2 = Net.narrowRaw net.toRaw.1 net.toRaw.2 :=
    h.narrowRaw_eq.trans NetForm.plain.narrowRaw_eq.symm
  have hread : Net.ofRaw raw.1 raw.2 = .ok net := by
    rw [← net.ofRaw_toRaw, Net.ofRaw, Net.ofRaw, hnarrow]
  rw [readNet, hread]
  rfl

/-- The strings of a pair are short enough to be counted. -/
theorem NetForm.length_lt (h : NetForm net raw) :
    raw.1.length < twoPow 32 ∧ raw.2.length < twoPow 32 := by
  have hle := length_toRaw_lt net
  cases h with
  | plain => exact hle
  | wideMask hfamily =>
    refine ⟨hle.1, ?_⟩
    rw [List.length_append, (length_toRaw_of_v4 hfamily).2]
    decide
  | mappedAddress hfamily =>
    refine ⟨?_, hle.2⟩
    rw [List.length_append, (length_toRaw_of_v4 hfamily).1]
    decide

/-- What is written today is a spelling of a net. -/
theorem netSpelling_writeNet (net : Net) : NetSpelling net (writeNet net) :=
  .mk (.plain : NetForm net net.toRaw) .binary .binary

/-- A spelling of a net is read as a pair that stands for the net. -/
theorem NetSpelling.readsAs {w : Bytes} (h : NetSpelling net w) (depth : Nat) :
    ∃ raw, NetForm net raw ∧ ReadsAs (depth + 3) rawNet? w raw := by
  obtain ⟨hform, haddress, hmask⟩ := h
  obtain ⟨a, hreada, ha⟩ := haddress.readsAs hform.length_lt.1 depth
  obtain ⟨m, hreadm, hm⟩ := hmask.readsAs hform.length_lt.2 depth
  refine ⟨_, hform, .array [a, m],
    reads_writeArray [(_, a), (_, m)] ?_ (show 2 < twoPow 32 by decide), ?_⟩
  · exact List.forall_mem_cons.2 ⟨hreada, List.forall_mem_singleton.2 hreadm⟩
  · rw [rawNet?, ha, hm]
    rfl

end Record

namespace PeerIdentity

open Record

/-! ## Peers -/

/-- The spellings of the fields of a peer. The lists and the keepalive interval are written as
always, so the lists must be short enough to be counted. -/
inductive Spelling (p : PeerIdentity) : Bytes → Prop
  | mk {address privateKey publicKey : Bytes} {dns allowedIPs : List Bytes}
      (haddress : NetSpelling p.address address)
      (hprivateKey : BytesSpelling p.privateKey.bytes privateKey)
      (hpublicKey : BytesSpelling p.publicKey.bytes publicKey)
      (hdns : List.Forall₂ (fun a => BytesSpelling a.toBytes) p.dns dns)
      (hallowedIPs : List.Forall₂ NetSpelling p.allowedIPs allowedIPs) (hcount : p.Countable) :
      Spelling p (writeArray [address, privateKey, publicKey, writeArray dns,
        writeArray allowedIPs, writeOptional (fun n => writeNatural n.toNat) p.persistentKeepalive])

variable {p : PeerIdentity}

/-- What is written today is one of the spellings, behind the header. -/
theorem Countable.spelling (h : p.Countable) :
    ∃ payload, p.Spelling payload ∧ p.encode = frame payload := by
  rw [encode]
  refine ⟨_, .mk (netSpelling_writeNet _) .binary .binary ?_ ?_ h, rfl⟩
  · exact List.forall₂_map_right_iff.2 (List.forall₂_same.2 fun _ _ => .binary)
  · exact List.forall₂_map_right_iff.2 (List.forall₂_same.2 fun net _ => netSpelling_writeNet net)

/-- Spellings of nets are read as pairs that stand for the nets, one by one. -/
theorem exists_forms {nets : List Net} {ws : List Bytes} (h : List.Forall₂ NetSpelling nets ws)
    (depth : Nat) :
    ∃ raws, List.Forall₂ NetForm nets raws ∧
      List.Forall₂ (fun raw w => ReadsAs (depth + 3) rawNet? w raw) raws ws := by
  induction h with
  | nil => exact ⟨[], .nil, .nil⟩
  | cons hnet _ ih =>
    obtain ⟨raw, hform, hread⟩ := hnet.readsAs depth
    obtain ⟨raws, hforms, hreads⟩ := ih
    exact ⟨raw :: raws, .cons hform hforms, .cons hread hreads⟩

/-- The peer of fields that stand for its own, under any name. -/
theorem ofRaw_of_forms {address : Bytes × Bytes} {allowedIPs : List (Bytes × Bytes)}
    (haddress : NetForm p.address address)
    (hallowedIPs : List.Forall₂ NetForm p.allowedIPs allowedIPs) (name : String) :
    ofRaw name ⟨address, p.privateKey.bytes, p.publicKey.bytes, p.dns.map Address.toBytes,
      allowedIPs, p.persistentKeepalive.map fun n => (n.toNat : Int)⟩ =
      .ok { p with name := name } := by
  have hnets : allowedIPs.mapM readNet = .ok p.allowedIPs :=
    mapM_of_forall₂ (hallowedIPs.imp fun _ _ h => h.readNet_eq)
  have hplain : (p.allowedIPs.map Net.toRaw).mapM readNet = .ok p.allowedIPs := by
    rw [mapM_map_pure (h := id) readNet_toRaw, List.map_id]
    rfl
  -- the nets are read as those of the pairs that are written today
  rw [← p.ofRaw_toRaw name, ofRaw, ofRaw, hnets, hplain, haddress.readNet_eq, readNet_toRaw]

/-- **Every spelling of a peer is read as that peer**, and writing it again gives the value that is
written today: whichever of its strings of bytes are arrays of numbers, and whichever of its 32-bit
nets are kept with a wide mask or with a mapped address. What is written today is one of the
spellings, if the lists can be counted. -/
theorem decode_spelling (p : PeerIdentity) :
    (p.Countable → ∃ payload, p.Spelling payload ∧ p.encode = frame payload) ∧
    ∀ payload, p.Spelling payload → decode p.name (frame payload) = .ok p ∧
      (decode p.name (frame payload)).map encode = .ok p.encode := by
  refine ⟨Countable.spelling, fun payload h => ?_⟩
  suffices hdecode : decode p.name (frame payload) = .ok p by
    rw [hdecode]
    exact ⟨rfl, rfl⟩
  obtain @⟨address, privateKey, publicKey, dns, allowedIPs, haddress, hprivateKey, hpublicKey, hdns,
    hallowedIPs, hcount⟩ := h
  obtain ⟨raw, hform, v₁, hread₁, h₁⟩ := haddress.readsAs 1020
  obtain ⟨v₂, hread₂, h₂⟩ := hprivateKey.readsAs (length_key_lt _) 1021
  obtain ⟨v₃, hread₃, h₃⟩ := hpublicKey.readsAs (length_key_lt _) 1021
  have haddresses := hdns.imp fun a _ (h : BytesSpelling a.toBytes _) =>
    h.readsAs (length_toBytes_lt a) 1020
  obtain ⟨v₄, hread₄, h₄⟩ := readsAs_writeArray (List.forall₂_map_left_iff.2 haddresses)
    ((List.length_map Address.toBytes).symm ▸ hcount.dns)
  obtain ⟨raws, hforms, hreads⟩ := exists_forms hallowedIPs 1019
  obtain ⟨v₅, hread₅, h₅⟩ := readsAs_writeArray hreads (hforms.length_eq ▸ hcount.allowedIPs)
  have hraw : raw? (.array [v₁, v₂, v₃, v₄, v₅, p.keepaliveValue]) =
      some ⟨raw, _, _, p.dns.map Address.toBytes, raws, _⟩ :=
    raw?_of_items h₁ h₂ h₃ h₄ h₅ p.asOptional?_keepaliveValue
  -- the six fields with what they are read as
  let items : List (Bytes × Value) := [(address, v₁), (privateKey, v₂), (publicKey, v₃),
    (writeArray dns, v₄), (writeArray allowedIPs, v₅),
    (writeOptional (fun n => writeNatural n.toNat) p.persistentKeepalive, p.keepaliveValue)]
  have hitems : ∀ q ∈ items, Reads 1023 q.1 q.2 := by
    simp only [items, List.forall_mem_cons]
    exact ⟨hread₁, hread₂, hread₃, hread₄, hread₅, p.reads_keepalive 1022, nofun⟩
  exact (decode_of_items hitems (show 6 < twoPow 32 by decide) hraw p.name).trans
    (ofRaw_of_forms hform hforms p.name)

/-- A spelling with a private key of numbers, an address of numbers in four forms and a mapped net,
beside nets of 128 bits that begin like a mapped one. -/
def mixedSpelling : Bytes :=
  let mapped : Address := .ofNat .v6 0xFFFF0A090807
  writeArray [writeNet mappedPeer.address, 0xDC :: 0 :: 32 :: mappedPeer.privateKey.bytes,
    writeBinary mappedPeer.publicKey.bytes,
    writeArray [[0xDD, 0, 0, 0, 4, 1, 0xCC, 1, 0xD1, 0, 1, 0xD3, 0, 0, 0, 0, 0, 0, 0, 1],
      writeBinary mapped.toBytes],
    writeArray [
      writeArray [writeBinary (Net.mappedStart ++ [10, 9, 8, 7]), writeBinary [0, 0, 0, 0]],
      writeNet (.host mapped)],
    [0]]

/-- It is a spelling of the peer and is read as the peer. -/
theorem decode_mixedSpelling :
    mappedPeer.Spelling mixedSpelling ∧ decode "zoë" (frame mixedSpelling) = .ok mappedPeer := by
  -- an array with a count of two bytes, whose numbers are small
  have hkey : BytesSpelling mappedPeer.privateKey.bytes
      (0xDC :: 0 :: 32 :: mappedPeer.privateKey.bytes) := by
    have hsmall : ∀ b ∈ mappedPeer.privateKey.bytes, b < 0x80 := by decide +kernel
    have hitems : List.Forall₂ ByteSpelling mappedPeer.privateKey.bytes
        (mappedPeer.privateKey.bytes.map ([·])) :=
      List.forall₂_map_right_iff.2 (List.forall₂_same.2 fun b hb => .small (hsmall b hb))
    exact .numbers (.medium (by decide)) hitems
  -- an array with a count of four bytes, and one number in each of four forms
  have haddress : BytesSpelling (Address.ofNat .v4 0x01010101).toBytes
      [0xDD, 0, 0, 0, 4, 1, 0xCC, 1, 0xD1, 0, 1, 0xD3, 0, 0, 0, 0, 0, 0, 0, 1] := by
    show BytesSpelling [1, 1, 1, 1] _
    exact .numbers (.long (by decide)) (.cons (.small (by decide))
      (.cons (@ByteSpelling.natural _ 0xCC 1 (by simp))
        (.cons (@ByteSpelling.integer _ 0xD1 2 (by simp) (.inr (by decide)))
          (.cons (@ByteSpelling.integer _ 0xD3 8 (by simp) (.inr (by decide))) .nil))))
  have hmapped : NetSpelling ⟨.ofNat .v4 0x0A090807, 0, by decide⟩
      (writeArray [writeBinary (Net.mappedStart ++ [10, 9, 8, 7]), writeBinary [0, 0, 0, 0]]) :=
    .mk (.mappedAddress rfl) .binary .binary
  have hspelling : mappedPeer.Spelling mixedSpelling :=
    .mk (netSpelling_writeNet _) hkey .binary (.cons haddress (.cons .binary .nil))
      (.cons hmapped (.cons (netSpelling_writeNet _) .nil)) ⟨by decide, by decide⟩
  exact ⟨hspelling, ((decode_spelling mappedPeer).2 mixedSpelling hspelling).1⟩

end PeerIdentity

end WireKeeper
