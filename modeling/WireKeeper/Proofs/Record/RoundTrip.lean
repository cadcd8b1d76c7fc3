import WireKeeper.Proofs.Basic
import WireKeeper.Proofs.Bytes.Utf8
import WireKeeper.Proofs.MessagePack.Counted
import WireKeeper.Proofs.MessagePack.RoundTrip
import WireKeeper.Proofs.Net.Raw
import WireKeeper.Record.Codec

/-! # Records are read back as they were written

The identity of the server is always read back. So is a credential, if its comment can be counted in
32 bits, and a peer, if its two lists can; the value of any other peer is no record.

* `ServerIdentity.decode_encode`, `Credential.decode_encode`, `PeerIdentity.decode_encode`: reading
  back;
* `PeerIdentity.eq_of_decode_encode`: nothing but the written peer is ever read back;
* `Credential.of_decode`, `PeerIdentity.of_decode`: a record that was read can be written again;
* `Record.recovered_records`: every record of the store, with the header of its value. -/

namespace WireKeeper

open MessagePack

/-! ## Keys, addresses and nets -/

namespace Record

/-- A value of version one is read from what follows its header, if that begins with an item. -/
theorem bind_frame {α : Type} {payload rest : Bytes} {v : Value}
    (h : Value.read maxDepth payload = some (v, rest)) (f : Value → Except StoreError α) :
    (unframe (frame payload) >>= fun payload => readPayload payload >>= f) = f v := by
  rw [unframe_frame]
  show (readPayload payload >>= f) = f v
  rw [readPayload, h]
  rfl

/-- What holds no item is no record, and is undecodable. -/
theorem bind_frame_of_none {α : Type} {payload : Bytes} (h : Value.read maxDepth payload = none)
    (f : Value → Except StoreError α) :
    (unframe (frame payload) >>= fun payload => readPayload payload >>= f) =
      .error .undecodable := by
  rw [unframe_frame]
  show (readPayload payload >>= f) = _
  rw [readPayload, h]
  rfl

/-- The item of a net: its two parts as binary strings. -/
def netValue (net : Net) : Value := .array [.binary net.toRaw.1, .binary net.toRaw.2]

/-- An address is short enough to be counted. -/
theorem length_toBytes_lt (a : Address) : a.toBytes.length < twoPow 32 := by
  rw [Address.length_toBytes]
  cases a.family <;> decide

/-- The two parts of a net are short enough to be counted. -/
theorem length_toRaw_lt (net : Net) :
    net.toRaw.1.length < twoPow 32 ∧ net.toRaw.2.length < twoPow 32 := by
  rw [Net.toRaw, Address.length_toBytes, Bytes.length_ofNat]
  cases net.address.family <;> decide

/-- A net is read back as the item of its two parts. -/
theorem reads_writeNet (net : Net) (depth : Nat) :
    Reads (depth + 2) (writeNet net) (netValue net) := by
  refine reads_writeArray [(writeBinary net.toRaw.1, .binary net.toRaw.1),
    (writeBinary net.toRaw.2, .binary net.toRaw.2)] ?_ (show 2 < twoPow 32 by decide)
  intro p hp
  simp only [List.mem_cons, List.not_mem_nil, or_false] at hp
  rcases hp with rfl | rfl
  · exact reads_writeBinary (length_toRaw_lt net).1 depth
  · exact reads_writeBinary (length_toRaw_lt net).2 depth

/-- The bytes of a net's parts are found in its item. -/
theorem rawNet?_netValue (net : Net) : rawNet? (netValue net) = some net.toRaw := rfl

/-- The net of the bytes of its parts is the net. -/
theorem readNet_toRaw (net : Net) : readNet net.toRaw = .ok net := by
  rw [readNet, Net.ofRaw_toRaw]
  rfl

/-- The address of its bytes is the address. -/
theorem readAddress_toBytes (a : Address) : readAddress a.toBytes = .ok a := by
  rw [readAddress, Address.ofBytes_toBytes]
  rfl

/-- The key of its bytes is the key, whatever it is called. -/
theorem readKey_bytes (what : String) (key : KeyBytes) : readKey what key.bytes = .ok key := by
  rw [readKey, KeyBytes.ofBytes?_bytes]

/-- The keepalive interval of its number is the interval, and none is none. -/
theorem readKeepalive_toNat (o : Option UInt16) :
    readKeepalive (o.map fun n => (n.toNat : Int)) = .ok o := by
  cases o with
  | none => rfl
  | some n =>
    have hn := n.toNat_lt
    rw [Option.map_some, readKeepalive, if_pos (by omega), Int.toNat_natCast, UInt16.ofNat_toNat]

/-- A key is short enough to be counted. -/
theorem length_key_lt (key : KeyBytes) : key.bytes.length < twoPow 32 := by
  rw [key.length_eq]
  decide

end Record

/-- `ServerIdentity.decode s.encode = .ok s`: the identity of the server is read back. -/
theorem ServerIdentity.decode_encode (s : ServerIdentity) : decode s.encode = .ok s := by
  have hread : Reads Record.maxDepth (writeArray [writeBinary s.privateKey.bytes])
      (.array [.binary s.privateKey.bytes]) := by
    refine reads_writeArray [(writeBinary s.privateKey.bytes, .binary s.privateKey.bytes)] ?_
      (show 1 < twoPow 32 by decide)
    intro p hp
    cases List.mem_singleton.1 hp
    exact reads_writeBinary (Record.length_key_lt _) 1022
  have hread := hread []
  rw [List.append_nil] at hread
  -- behind the header stands one array of one field
  refine (Record.bind_frame hread _).trans ?_
  show (Record.readKey "private key" s.privateKey.toKeyBytes.bytes >>= _) = _
  rw [Record.readKey_bytes]
  rfl

/-- A credential whose comment can be counted is read back, under any key: the key is not in its
value. -/
theorem Credential.decode_encode {c : Credential}
    (h : (Utf8.ofString c.comment).length < twoPow 32) (key : Bytes) :
    decode key c.encode = .ok { c with key := key } := by
  have hread : Reads Record.maxDepth (writeArray [writeText c.comment])
      (.array [.text (Utf8.ofString c.comment)]) := by
    refine reads_writeArray [(writeText c.comment, .text (Utf8.ofString c.comment))] ?_
      (show 1 < twoPow 32 by decide)
    intro p hp
    cases List.mem_singleton.1 hp
    exact reads_writeText h 1022
  have hread := hread []
  rw [List.append_nil] at hread
  -- the only field is text, which is read as the string it was written from
  have hcomment : comment? (.array [.text (Utf8.ofString c.comment)]) = some c.comment :=
    Utf8.toString?_ofString c.comment
  refine (Record.bind_frame hread _).trans ?_
  rw [Record.expect, hcomment]
  rfl

namespace PeerIdentity

/-! ## Peers -/

/-- The lists of a peer can be **counted** in 32 bits, which is all that the format has for
a count. -/
structure Countable (p : PeerIdentity) : Prop where
  dns : p.dns.length < twoPow 32
  allowedIPs : p.allowedIPs.length < twoPow 32

/-- The addresses of the name servers as they are written, with what they are read as. -/
def dnsItems (p : PeerIdentity) : List (Bytes × Value) :=
  p.dns.map fun a => (writeBinary a.toBytes, .binary a.toBytes)

/-- The nets that are allowed as they are written, with what they are read as. -/
def allowedItems (p : PeerIdentity) : List (Bytes × Value) :=
  p.allowedIPs.map fun n => (Record.writeNet n, Record.netValue n)

/-- What the keepalive interval is read as: a number, or null. -/
def keepaliveValue (p : PeerIdentity) : Value :=
  (p.persistentKeepalive.map fun n => Value.natural n.toNat).getD .null

/-- The fields before the lists, with what they are read as: the net of the peer and its
two keys. -/
def keyItems (p : PeerIdentity) : List (Bytes × Value) :=
  [(Record.writeNet p.address, Record.netValue p.address),
    (writeBinary p.privateKey.bytes, .binary p.privateKey.bytes),
    (writeBinary p.publicKey.bytes, .binary p.publicKey.bytes)]

/-- The other fields, with what they are read as when the lists can be counted. -/
def listItems (p : PeerIdentity) : List (Bytes × Value) :=
  [(writeArray (p.dnsItems.map Prod.fst), .array (p.dnsItems.map Prod.snd)),
    (writeArray (p.allowedItems.map Prod.fst), .array (p.allowedItems.map Prod.snd)),
    (writeOptional (fun n => writeNatural n.toNat) p.persistentKeepalive, p.keepaliveValue)]

/-- A stored value is the array of the fields: `p.encode` frames those before the lists and then the
others. -/
theorem encode_eq (p : PeerIdentity) :
    p.encode = Record.frame (writeArray ((p.keyItems ++ p.listItems).map Prod.fst)) := by
  have hdns : p.dnsItems.map Prod.fst = p.dns.map fun a => writeBinary a.toBytes := by
    rw [dnsItems, List.map_map]
    rfl
  have hallowed : p.allowedItems.map Prod.fst = p.allowedIPs.map Record.writeNet := by
    rw [allowedItems, List.map_map]
    rfl
  rw [keyItems, listItems, hdns, hallowed]
  rfl

/-- The fields before the lists are read back, whatever the lists are. -/
theorem reads_keyItems (p : PeerIdentity) (depth : Nat) :
    ∀ q ∈ p.keyItems, Reads (depth + 2) q.1 q.2 := by
  intro q hq
  simp only [keyItems, List.mem_cons, List.not_mem_nil, or_false] at hq
  rcases hq with rfl | rfl | rfl
  · exact Record.reads_writeNet _ depth
  · exact reads_writeBinary (Record.length_key_lt _) (depth + 1)
  · exact reads_writeBinary (Record.length_key_lt _) (depth + 1)

/-- The addresses of the name servers are read back, each of them. -/
theorem reads_dnsItems (p : PeerIdentity) (depth : Nat) :
    ∀ q ∈ p.dnsItems, Reads (depth + 1) q.1 q.2 := by
  intro q hq
  obtain ⟨a, -, rfl⟩ := List.mem_map.1 hq
  exact reads_writeBinary (Record.length_toBytes_lt a) depth

/-- The nets that are allowed are read back, each of them. -/
theorem reads_allowedItems (p : PeerIdentity) (depth : Nat) :
    ∀ q ∈ p.allowedItems, Reads (depth + 2) q.1 q.2 := by
  intro q hq
  obtain ⟨n, -, rfl⟩ := List.mem_map.1 hq
  exact Record.reads_writeNet n depth

/-- The keepalive interval is read back, also if there is none. -/
theorem reads_keepalive (p : PeerIdentity) (depth : Nat) :
    Reads (depth + 1) (writeOptional (fun n => writeNatural n.toNat) p.persistentKeepalive)
      p.keepaliveValue := by
  refine reads_writeOptional (fun n => reads_writeNatural ?_ depth) p.persistentKeepalive
  exact Nat.lt_trans n.toNat_lt (by decide)

/-- The keepalive interval that its item holds is the interval as a number. -/
theorem asOptional?_keepaliveValue (p : PeerIdentity) :
    p.keepaliveValue.asOptional? Value.asInt? =
      some (p.persistentKeepalive.map fun n => (n.toNat : Int)) := by
  rw [keepaliveValue]
  cases p.persistentKeepalive with
  | none => rfl
  | some n =>
    have hn : n.toNat < 0x8000000000000000 := Nat.lt_trans n.toNat_lt (by decide)
    show (Value.asInt? (.natural n.toNat)).map some = _
    rw [Value.asInt?, if_pos hn]
    rfl

/-- The fields of a record whose items have their meanings, one for each of the six. -/
theorem raw?_of_items {raw : Raw} {v₁ v₂ v₃ v₄ v₅ v₆ : Value}
    (haddress : Record.rawNet? v₁ = some raw.address)
    (hprivateKey : v₂.asBytes? = some raw.privateKey)
    (hpublicKey : v₃.asBytes? = some raw.publicKey)
    (hdns : v₄.asList? Value.asBytes? = some raw.dns)
    (hallowedIPs : v₅.asList? Record.rawNet? = some raw.allowedIPs)
    (hkeepalive : v₆.asOptional? Value.asInt? = some raw.persistentKeepalive) :
    raw? (.array [v₁, v₂, v₃, v₄, v₅, v₆]) = some raw := by
  -- item by item, in the order in which they are read
  show (Record.rawNet? v₁ >>= _) = _
  rw [haddress]
  show (v₂.asBytes? >>= _) = _
  rw [hprivateKey]
  show (v₃.asBytes? >>= _) = _
  rw [hpublicKey]
  show (v₄.asList? Value.asBytes? >>= _) = _
  rw [hdns]
  show (v₅.asList? Record.rawNet? >>= _) = _
  rw [hallowedIPs]
  show (v₆.asOptional? Value.asInt? >>= _) = _
  rw [hkeepalive]
  rfl

/-- The fields that the items of a peer hold: its own bytes and numbers. -/
theorem raw?_array (p : PeerIdentity) :
    raw? (.array [Record.netValue p.address, .binary p.privateKey.bytes, .binary p.publicKey.bytes,
        .array (p.dnsItems.map Prod.snd), .array (p.allowedItems.map Prod.snd), p.keepaliveValue]) =
      some ⟨p.address.toRaw, p.privateKey.bytes, p.publicKey.bytes, p.dns.map Address.toBytes,
        p.allowedIPs.map Net.toRaw, p.persistentKeepalive.map fun n => (n.toNat : Int)⟩ := by
  have hdns : (p.dnsItems.map Prod.snd).mapM Value.asBytes? = some (p.dns.map Address.toBytes) := by
    rw [dnsItems, List.map_map]
    exact mapM_map_pure (f := Value.asBytes?) (h := Address.toBytes) (fun _ => rfl) p.dns
  have hallowed : (p.allowedItems.map Prod.snd).mapM Record.rawNet? =
      some (p.allowedIPs.map Net.toRaw) := by
    rw [allowedItems, List.map_map]
    exact mapM_map_pure (m := Option) Record.rawNet?_netValue p.allowedIPs
  exact raw?_of_items rfl rfl rfl hdns hallowed p.asOptional?_keepaliveValue

/-- The peer of its fields, under any name: the name is not among them. -/
theorem ofRaw_toRaw (p : PeerIdentity) (name : String) :
    ofRaw name ⟨p.address.toRaw, p.privateKey.bytes, p.publicKey.bytes, p.dns.map Address.toBytes,
      p.allowedIPs.map Net.toRaw, p.persistentKeepalive.map fun n => (n.toNat : Int)⟩ =
      .ok { p with name := name } := by
  have hdns : (p.dns.map Address.toBytes).mapM Record.readAddress = .ok p.dns := by
    rw [mapM_map_pure (h := id) Record.readAddress_toBytes, List.map_id]
    rfl
  have hallowed : (p.allowedIPs.map Net.toRaw).mapM Record.readNet = .ok p.allowedIPs := by
    rw [mapM_map_pure (h := id) Record.readNet_toRaw, List.map_id]
    rfl
  rw [ofRaw, hdns, hallowed, Record.readKeepalive_toNat, Record.readNet_toRaw, PrivateKey.bytes,
    PublicKey.bytes, Record.readKey_bytes, Record.readKey_bytes]
  rfl

/-- What the items of a list field are read as, when they can be counted. -/
theorem Countable.reads_listItems {p : PeerIdentity} (h : p.Countable) (depth : Nat) :
    ∀ q ∈ p.listItems, Reads (depth + 3) q.1 q.2 := by
  intro q hq
  simp only [listItems, List.mem_cons, List.not_mem_nil, or_false] at hq
  rcases hq with rfl | rfl | rfl
  · refine reads_writeArray _ (p.reads_dnsItems (depth + 1)) ?_
    rw [dnsItems, List.length_map]
    exact h.dns
  · refine reads_writeArray _ (p.reads_allowedItems depth) ?_
    rw [allowedItems, List.length_map]
    exact h.allowedIPs
  · exact p.reads_keepalive (depth + 2)

/-- A few items that are read and hold the fields of a record are read as the record of these
fields. -/
theorem decode_of_items {ps : List (Bytes × Value)} {raw : Raw}
    (hreads : ∀ q ∈ ps, Reads 1023 q.1 q.2) (hcount : ps.length < twoPow 32)
    (hraw : raw? (.array (ps.map Prod.snd)) = some raw) (name : String) :
    decode name (Record.frame (writeArray (ps.map Prod.fst))) = ofRaw name raw := by
  have hread : Value.read 1024 _ = _ := reads_writeArray ps hreads hcount []
  rw [List.append_nil] at hread
  refine (Record.bind_frame hread _).trans ?_
  show (Record.expect raw? (.array (ps.map Prod.snd)) >>= ofRaw name) = _
  rw [Record.expect, hraw]
  rfl

/-- A peer whose lists can be counted is read back, under any name: `decode name p.encode` is `p`
with that name. -/
theorem decode_encode {p : PeerIdentity} (h : p.Countable) (name : String) :
    decode name p.encode = .ok { p with name := name } := by
  have hitems : ∀ q ∈ p.keyItems ++ p.listItems, Reads 1023 q.1 q.2 := by
    intro q hq
    rcases List.mem_append.1 hq with hq | hq
    · exact p.reads_keyItems 1021 q hq
    · exact h.reads_listItems 1020 q hq
  -- six fields always make a short array, whatever is inside
  rw [encode_eq, decode_of_items hitems (show 6 < twoPow 32 by decide) p.raw?_array]
  exact p.ofRaw_toRaw name

/-! ## Peers that cannot be counted

The items of a list beyond the count are taken for the fields behind it, and have the wrong form
for them. -/

/-- Reading an item and then others: the first of what is read is the item, and the others are read
from its rest. -/
theorem readMany_succ {depth n : Nat} {bs rest : Bytes} {v : Value}
    (h : Value.read depth bs = some (v, rest)) {as : List Value} {tail : Bytes}
    (hr : readMany (Value.read depth) (n + 1) bs = some (as, tail)) :
    ∃ vs, readMany (Value.read depth) n rest = some (vs, tail) ∧ as = v :: vs := by
  rw [readMany, h] at hr
  simp only at hr
  split at hr
  · cases hr
  · next heq =>
    cases hr
    exact ⟨_, heq, rfl⟩

/-- The first item beyond those that are counted, where there are too many of them for the count. -/
theorem drop_count_eq_cons {ps : List (Bytes × Value)} (h : ¬ps.length < twoPow 32) :
    ∃ p ∈ ps, ∃ tail, ps.drop (ps.length % twoPow 32) = p :: tail := by
  have hlt : ps.length % twoPow 32 < ps.length :=
    Nat.lt_of_lt_of_le (Nat.mod_lt _ (twoPow_pos 32)) (Nat.le_of_not_lt h)
  rw [List.drop_eq_getElem_cons hlt]
  exact ⟨_, List.getElem_mem hlt, _, rfl⟩

/-- When there are too many addresses, one of them stands where the nets are wanted; when there are
too many nets, one of them stands where the keepalive interval is wanted. -/
theorem readMany_listItems {p : PeerIdentity} (h : ¬p.Countable) {depth : Nat} {as : List Value}
    {rest : Bytes}
    (hr : readMany (Value.read (depth + 3)) 3 ((p.listItems.map Prod.fst).flatten) =
      some (as, rest)) :
    ∃ v₁ v₂ v₃, as = [v₁, v₂, v₃] ∧
      (v₂.asList? Record.rawNet? = none ∨ v₃.asOptional? Value.asInt? = none) := by
  rw [listItems, List.map_cons, List.flatten_cons] at hr
  obtain ⟨vs, hr, hvs⟩ := readMany_succ (read_writeArray (p.reads_dnsItems (depth + 1)) _) hr
  by_cases hdns : p.dnsItems.length < twoPow 32
  · -- all addresses are read, so that there are too many nets
    have hallowed : ¬p.allowedItems.length < twoPow 32 := by
      rw [dnsItems, List.length_map] at hdns
      rw [allowedItems, List.length_map]
      exact fun hallowed => h ⟨hdns, hallowed⟩
    obtain ⟨q, hq, tail, htail⟩ := drop_count_eq_cons hallowed
    obtain ⟨n, -, rfl⟩ := List.mem_map.1 hq
    rw [Nat.mod_eq_of_lt hdns, List.drop_length, List.map_nil, List.flatten_nil, List.nil_append,
      List.map_cons, List.flatten_cons] at hr
    obtain ⟨vs', hr, hvs'⟩ := readMany_succ (read_writeArray (p.reads_allowedItems depth) _) hr
    rw [htail, List.map_cons, List.flatten_cons, List.append_assoc] at hr
    obtain ⟨vs'', hr, hvs''⟩ := readMany_succ (Record.reads_writeNet n (depth + 1) _) hr
    obtain ⟨hlength, -⟩ := mem_of_readMany hr
    cases List.length_eq_zero_iff.1 hlength
    rw [hvs, hvs', hvs'']
    exact ⟨_, _, _, rfl, .inr rfl⟩
  · -- the addresses beyond the count stand in front of the nets
    obtain ⟨q, hq, tail, htail⟩ := drop_count_eq_cons hdns
    rw [htail, List.map_cons, List.flatten_cons, List.append_assoc] at hr
    have hread := p.reads_dnsItems (depth + 2) q hq
    obtain ⟨a, -, rfl⟩ := List.mem_map.1 hq
    obtain ⟨vs', hr, hvs'⟩ := readMany_succ (hread _) hr
    obtain ⟨hlength, -⟩ := mem_of_readMany hr
    obtain ⟨v, rfl⟩ := List.length_eq_one_iff.1 hlength
    rw [hvs, hvs']
    exact ⟨_, _, _, rfl, .inl rfl⟩

/-- The fields of a record are none when the nets or the keepalive interval have another form. -/
theorem raw?_eq_none {v₁ v₂ v₃ v₄ v₅ v₆ : Value}
    (h : v₅.asList? Record.rawNet? = none ∨ v₆.asOptional? Value.asInt? = none) :
    raw? (.array [v₁, v₂, v₃, v₄, v₅, v₆]) = none := by
  refine Option.bind_eq_none_iff.2 fun address _ => ?_
  refine Option.bind_eq_none_iff.2 fun privateKey _ => ?_
  refine Option.bind_eq_none_iff.2 fun publicKey _ => ?_
  refine Option.bind_eq_none_iff.2 fun dns _ => ?_
  refine Option.bind_eq_none_iff.2 fun allowedIPs hallowed => ?_
  refine Option.bind_eq_none_iff.2 fun keepalive hkeepalive => ?_
  rcases h with h | h
  · rw [h] at hallowed
    cases hallowed
  · rw [Option.getD_some, h] at hkeepalive
    cases hkeepalive

/-- The fields of a peer whose lists cannot be counted are no fields of a record, in whatever form
they are read. -/
theorem raw?_of_readMany {p : PeerIdentity} (h : ¬p.Countable) {depth : Nat} {as : List Value}
    {rest : Bytes}
    (hr : readMany (Value.read (depth + 3)) 6 ((p.keyItems ++ p.listItems).map Prod.fst).flatten =
      some (as, rest)) : raw? (.array as) = none := by
  rw [keyItems, List.map_append, List.flatten_append, List.map_cons, List.map_cons, List.map_cons,
    List.map_nil, List.flatten_cons, List.flatten_cons, List.flatten_cons, List.flatten_nil,
    List.append_nil, List.append_assoc, List.append_assoc] at hr
  have hkey := Record.length_key_lt
  obtain ⟨as₁, h₁, rfl⟩ := readMany_succ (Record.reads_writeNet p.address (depth + 1) _) hr
  obtain ⟨as₂, h₂, rfl⟩ := readMany_succ (reads_writeBinary (hkey _) (depth + 2) _) h₁
  obtain ⟨as₃, h₃, rfl⟩ := readMany_succ (reads_writeBinary (hkey _) (depth + 2) _) h₂
  obtain ⟨v₁, v₂, v₃, rfl, hwrong⟩ := readMany_listItems h h₃
  exact raw?_eq_none hwrong

/-- A peer whose lists cannot be counted is not read back, and its value is undecodable. -/
theorem decode_encode_of_not_countable {p : PeerIdentity} (h : ¬p.Countable) (name : String) :
    decode name p.encode = .error .undecodable := by
  have hread : Value.read 1024 _ = _ := read_writeArray_of_lt
    (show ((p.keyItems ++ p.listItems).map Prod.fst).length < 16 from
      (show 6 < 16 by decide)) []
  rw [List.append_nil, List.append_nil] at hread
  rw [encode_eq]
  -- six items are not read at all, or one of them has another form
  cases hmany : readMany (Value.read 1023) 6 ((p.keyItems ++ p.listItems).map Prod.fst).flatten with
  | none =>
    exact Record.bind_frame_of_none (hread.trans (congrArg (Option.map _) hmany)) _
  | some r =>
    refine (Record.bind_frame (hread.trans (congrArg (Option.map _) hmany)) _).trans ?_
    show (Record.expect raw? (.array r.1) >>= ofRaw name) = _
    rw [Record.expect, raw?_of_readMany h hmany]
    rfl

/-- Whatever is read back from the value of a peer is that peer, under the name at hand. -/
theorem eq_of_decode_encode {p q : PeerIdentity} {name : String}
    (h : decode name p.encode = .ok q) : q = { p with name := name } := by
  by_cases hp : p.Countable
  · rw [decode_encode hp] at h
    cases h
    rfl
  · rw [decode_encode_of_not_countable hp] at h
    cases h

end PeerIdentity

/-! ## Records that were read -/

namespace Record

/-- Only what a reader accepts is accepted. -/
theorem eq_some_of_expect {α : Type} {read : Value → Option α} {v : Value} {a : α}
    (h : expect read v = .ok a) : read v = some a := by
  rw [expect] at h
  split at h
  · next heq => rwa [← Except.ok.inj h]
  · cases h

/-- The item of a payload was read. -/
theorem wasRead_of_readPayload {payload : Bytes} {v : Value} (h : readPayload payload = .ok v) :
    v.WasRead := by
  rw [readPayload] at h
  split at h
  · next heq => exact ⟨_, _, _, Except.ok.inj h ▸ heq⟩
  · cases h

/-- The text of a field is short, if the field was read: it came out of a string that could be
counted. -/
theorem length_of_asString? {v : Value} (hv : v.WasRead) {s : String}
    (h : v.asString? = some s) : (Utf8.ofString s).length < twoPow 32 := by
  have hcontent := hv.content
  cases v <;> try cases h
  case text bytes =>
    rw [Utf8.ofString_of_toString? h]
    exact hcontent
  case binary bytes =>
    rw [Utf8.ofString_of_toString? h]
    exact hcontent

end Record

/-- A credential that was read has the key it was read under, and its comment can be counted. -/
theorem Credential.of_decode {key value : Bytes} {c : Credential} (h : decode key value = .ok c) :
    c.key = key ∧ (Utf8.ofString c.comment).length < twoPow 32 := by
  obtain ⟨payload, -, h⟩ := bind_eq_ok.1 h
  obtain ⟨v, hv, h⟩ := bind_eq_ok.1 h
  obtain ⟨comment, hcomment, h⟩ := bind_eq_ok.1 h
  cases h
  refine ⟨rfl, ?_⟩
  obtain ⟨fs, hfs, hfield⟩ := Option.bind_eq_some_iff.1 (Record.eq_some_of_expect hcomment)
  split at hfield
  · have hread := (Record.wasRead_of_readPayload hv).fields hfs List.mem_cons_self
    exact Record.length_of_asString? hread hfield
  · cases hfield

namespace PeerIdentity

/-- A list that a field holds is short, if the field was read: it came out of an array that could be
counted. -/
theorem length_of_asList? {α : Type} {item : Value → Option α} {v : Value} {as : List α}
    (hv : v.WasRead) (h : v.asList? item = some as) : as.length < twoPow 32 := by
  cases v <;> try cases h
  case array items =>
    rw [length_of_mapM_some h]
    exact hv.content.1

/-- The lists among the fields of a record are short, if the record was read. -/
theorem length_of_raw? {v : Value} (hv : v.WasRead) {raw : Raw} (h : raw? v = some raw) :
    raw.dns.length < twoPow 32 ∧ raw.allowedIPs.length < twoPow 32 := by
  obtain ⟨fs, hfs, h⟩ := Option.bind_eq_some_iff.1 h
  split at h
  · next address privateKey publicKey dns allowedIPs keepalive =>
    obtain ⟨_, -, h⟩ := Option.bind_eq_some_iff.1 h
    obtain ⟨_, -, h⟩ := Option.bind_eq_some_iff.1 h
    obtain ⟨_, -, h⟩ := Option.bind_eq_some_iff.1 h
    obtain ⟨_, hdns, h⟩ := Option.bind_eq_some_iff.1 h
    obtain ⟨_, hallowed, h⟩ := Option.bind_eq_some_iff.1 h
    obtain ⟨_, -, h⟩ := Option.bind_eq_some_iff.1 h
    cases h
    exact ⟨length_of_asList? (hv.fields hfs (by simp)) hdns,
      length_of_asList? (hv.fields hfs (by simp)) hallowed⟩
  · cases h

/-- A peer that was read has the name it was read under, and can be written again: its lists came
out of arrays. -/
theorem of_decode {name : String} {value : Bytes} {p : PeerIdentity}
    (h : decode name value = .ok p) : p.name = name ∧ p.Countable := by
  obtain ⟨payload, -, h⟩ := bind_eq_ok.1 h
  obtain ⟨v, hv, h⟩ := bind_eq_ok.1 h
  obtain ⟨raw, hraw, h⟩ := bind_eq_ok.1 h
  obtain ⟨hdns, hallowed⟩ :=
    length_of_raw? (Record.wasRead_of_readPayload hv) (Record.eq_some_of_expect hraw)
  obtain ⟨dns, hd, h⟩ := bind_eq_ok.1 h
  obtain ⟨allowedIPs, ha, h⟩ := bind_eq_ok.1 h
  obtain ⟨_, -, h⟩ := bind_eq_ok.1 h
  obtain ⟨_, -, h⟩ := bind_eq_ok.1 h
  obtain ⟨_, -, h⟩ := bind_eq_ok.1 h
  obtain ⟨_, -, h⟩ := bind_eq_ok.1 h
  cases h
  exact ⟨rfl, (length_of_mapM_ok hd).symm ▸ hdns, (length_of_mapM_ok ha).symm ▸ hallowed⟩

end PeerIdentity

/-! ## All records -/

namespace Record

/-- A record is **recovered** from a value that has the header of version one, which can be made,
and is read as the record. -/
structure Recovered {α : Type} (decode : Bytes → Except StoreError α) (value : Bytes) (record : α) :
    Prop where
  framed : ∃ payload, (Header.make 1 false).map (fun h => h.toByte :: payload) = .ok value
  decoded : decode value = .ok record

/-- Whatever is framed has the header of version one. -/
theorem framed_frame (payload : Bytes) :
    ∃ rest, (Header.make 1 false).map (fun h => h.toByte :: rest) = .ok (frame payload) :=
  ⟨payload, rfl⟩

/-- Every record is written, and is read back from its value as it was: a credential under its key,
if the comment can be counted in 32 bits; a peer under its name, if the lists can; and the identity
of the server. -/
theorem recovered_records :
    (∀ c : Credential, (Utf8.ofString c.comment).length < twoPow 32 →
      Recovered (Credential.decode c.key) c.encode c) ∧
    (∀ p : PeerIdentity, p.dns.length < twoPow 32 → p.allowedIPs.length < twoPow 32 →
      Recovered (PeerIdentity.decode p.name) p.encode p) ∧
    ∀ s : ServerIdentity, Recovered ServerIdentity.decode s.encode s := by
  refine ⟨fun c hcomment => ?_, fun p hdns hallowed => ?_, fun s => ?_⟩
  · exact ⟨framed_frame _, Credential.decode_encode hcomment c.key⟩
  · exact ⟨framed_frame _, PeerIdentity.decode_encode ⟨hdns, hallowed⟩ p.name⟩
  · exact ⟨framed_frame _, s.decode_encode⟩

/-- A peer at an address that stands for a 32-bit one, whose keepalive interval is zero and whose
lists mix the families. -/
def mappedPeer : PeerIdentity :=
  let mapped : Address := ⟨.v6, 0xFFFF0A090807, by decide⟩
  ⟨"zoë", ⟨mapped, 120, by decide⟩, ⟨.ofNat 1⟩, ⟨.ofNat 2⟩, [.ofNat .v4 0x01010101, mapped],
    [⟨.ofNat .v4 0x0A090807, 0, by decide⟩, ⟨mapped, 128, by decide⟩], some 0⟩

/-- It is recovered with all of these, and so is a credential without a key. -/
theorem recovered_mappedPeer :
    Recovered (PeerIdentity.decode "zoë") mappedPeer.encode mappedPeer ∧
      Recovered (Credential.decode []) (Credential.mk [] "admin@host").encode ⟨[], "admin@host"⟩ :=
  ⟨recovered_records.2.1 mappedPeer (by decide) (by decide),
    recovered_records.1 ⟨[], "admin@host"⟩ (by decide +kernel)⟩

end Record

end WireKeeper
