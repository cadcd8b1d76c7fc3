import WireKeeper.Proofs.Net.RawPairs
import WireKeeper.Proofs.Record.Faults
import WireKeeper.Proofs.Record.RoundTrip

/-! # Stored peers that overflow the counter of a mask

Nothing limits how long the raw address and mask of a stored peer are, and the ones of a mask are
counted in a byte before its length is looked at. So the value of a peer can be such that reading it
breaks off in the middle of counting, where it should be refused as corrupted.

* `ComesTo`: the pairs of raw bytes that reading a stored peer comes to;
* `decode_eq_brokenOff_iff`: reading breaks off exactly at such a pair whose mask has too many ones;
* `rowHolding`, `comesTo_rowHolding`: any pair that can be counted in 32 bits is in some stored
  peer;
* `counter_exact`, `not_counted_longMask`: which stored peers break the reading off, and one that
  does. -/

namespace WireKeeper.PeerIdentity

open MessagePack Record
open Net (ManyOnes)

/-- Reading the fields of a peer comes to a pair of raw bytes: all that is read in front of it is
read without fault. The nets that are allowed stand in front of the peer's own. -/
inductive Raw.ComesTo (raw : Raw) : Bytes × Bytes → Prop
  | allowed {dns : List Address} {front rest : List (Bytes × Bytes)} {nets : List Net}
      {pair : Bytes × Bytes} (hdns : raw.dns.mapM readAddress = .ok dns)
      (hsplit : raw.allowedIPs = front ++ pair :: rest) (hfront : front.mapM readNet = .ok nets) :
      ComesTo raw pair
  | address {dns : List Address} {nets : List Net} {keepalive : Option UInt16}
      (hdns : raw.dns.mapM readAddress = .ok dns)
      (hallowed : raw.allowedIPs.mapM readNet = .ok nets)
      (hkeepalive : readKeepalive raw.persistentKeepalive = .ok keepalive) :
      ComesTo raw raw.address

/-- Reading a stored peer **comes to** a pair of raw bytes: its value has a header and an item, and
reading the fields of it comes to the pair. -/
def ComesTo (value : Bytes) (pair : Bytes × Bytes) : Prop :=
  ∃ payload v raw, unframe value = .ok payload ∧ readPayload payload = .ok v ∧
    expect raw? v = .ok raw ∧ raw.ComesTo pair

variable {address mask value : Bytes} {pair : Bytes × Bytes} {e : StoreError}

/-! ## Where reading breaks off -/

/-- Fields are refused for a pair that reading comes to and that is no net, with the error of the
pair. -/
theorem Raw.ComesTo.ofRaw_eq_error {raw : Raw} (h : raw.ComesTo pair)
    (he : readNet pair = .error e) (name : String) : ofRaw name raw = .error e := by
  cases h with
  | allowed hdns hsplit hfront =>
    have hallowed : raw.allowedIPs.mapM readNet = .error e :=
      mapM_eq_error.2 ⟨_, _, _, _, hsplit, hfront, he⟩
    rw [ofRaw, hdns, hallowed]
    rfl
  | address hdns hallowed hkeepalive =>
    rw [ofRaw, hdns, hallowed, hkeepalive, he]
    rfl

/-- `ofRaw name raw` breaks off exactly if it comes to a pair at which the reading of a net does. -/
theorem Raw.ofRaw_eq_brokenOff_iff {raw : Raw} {name : String} :
    ofRaw name raw = .error .brokenOff ↔
      ∃ pair, raw.ComesTo pair ∧ readNet pair = .error .brokenOff := by
  constructor
  · intro h
    -- the readers in their order: only those of nets break off
    obtain h | ⟨dns, hdns, h⟩ := bind_eq_error.1 h
    · exact absurd h (OnlyErrors.mapM refusal_readAddress _).ne_brokenOff
    obtain h | ⟨nets, hallowed, h⟩ := bind_eq_error.1 h
    · obtain ⟨front, pair, rest, bs, hsplit, hfront, hpair⟩ := mapM_eq_error.1 h
      exact ⟨pair, .allowed hdns hsplit hfront, hpair⟩
    obtain h | ⟨keepalive, hkeepalive, h⟩ := bind_eq_error.1 h
    · exact absurd h (refusal_readKeepalive _).ne_brokenOff
    obtain h | ⟨net, -, h⟩ := bind_eq_error.1 h
    · exact ⟨raw.address, .address hdns hallowed hkeepalive, h⟩
    obtain h | ⟨privateKey, -, h⟩ := bind_eq_error.1 h
    · exact absurd h (refusal_readKey _ _).ne_brokenOff
    obtain h | ⟨publicKey, -, h⟩ := bind_eq_error.1 h
    · exact absurd h (refusal_readKey _ _).ne_brokenOff
    · cases h
  · rintro ⟨pair, hcomes, hpair⟩
    exact hcomes.ofRaw_eq_error hpair name

/-- `decode name value` breaks off exactly if it comes to a pair at which the reading of a
net does. -/
theorem decode_eq_brokenOff_iff {name : String} :
    decode name value = .error .brokenOff ↔
      ∃ pair, ComesTo value pair ∧ readNet pair = .error .brokenOff := by
  constructor
  · intro h
    -- header, item and form can only be refused, so it is the fields that break off
    obtain h | ⟨payload, hframe, h⟩ := bind_eq_error.1 h
    · exact absurd h (refusal_unframe value).ne_brokenOff
    obtain h | ⟨v, hpayload, h⟩ := bind_eq_error.1 h
    · exact absurd h (refusal_readPayload payload).ne_brokenOff
    obtain h | ⟨raw, hraw, h⟩ := bind_eq_error.1 h
    · exact absurd h (refusal_expect raw? v).ne_brokenOff
    obtain ⟨pair, hcomes, hpair⟩ := Raw.ofRaw_eq_brokenOff_iff.1 h
    exact ⟨pair, ⟨payload, v, raw, hframe, hpayload, hraw, hcomes⟩, hpair⟩
  · rintro ⟨pair, ⟨payload, v, raw, hframe, hpayload, hraw, hcomes⟩, hpair⟩
    have hfields : ofRaw name raw = .error .brokenOff :=
      Raw.ofRaw_eq_brokenOff_iff.2 ⟨pair, hcomes, hpair⟩
    exact bind_eq_error.2 (.inr ⟨payload, hframe, bind_eq_error.2 (.inr ⟨v, hpayload,
      bind_eq_error.2 (.inr ⟨raw, hraw, hfields⟩)⟩)⟩)

/-! ## A row for each pair -/

/-- Any bytes of the length of a key. -/
def blankKey : Bytes := List.replicate 32 0

/-- The value of a peer with an address and a mask of any bytes, and nothing else of
interest in it. -/
def rowHolding (address mask : Bytes) : Bytes :=
  frame (writeArray [writeArray [writeBinary address, writeBinary mask], writeBinary blankKey,
    writeBinary blankKey, writeArray [], writeArray [], writeNull])

/-- The fields of such a value, as they are read. -/
def rawHolding (address mask : Bytes) : Raw := ⟨(address, mask), blankKey, blankKey, [], [], none⟩

/-- What is read as an item is a payload. -/
theorem readPayload_of_reads {payload : Bytes} {v : Value} (h : Reads maxDepth payload v) :
    readPayload payload = .ok v := by
  have hread := h []
  rw [List.append_nil] at hread
  rw [readPayload, hread]

/-- Reading comes to the pair of such a value: there are no addresses and nets in front of it, and
no keepalive. -/
theorem comesTo_rowHolding (haddress : address.length < twoPow 32)
    (hmask : mask.length < twoPow 32) : ComesTo (rowHolding address mask) (address, mask) := by
  have hpair : Reads 1023 (writeArray [writeBinary address, writeBinary mask])
      (.array [.binary address, .binary mask]) :=
    reads_writeArray [(writeBinary address, .binary address), (writeBinary mask, .binary mask)]
      (List.forall_mem_cons.2 ⟨reads_writeBinary haddress 1021,
        List.forall_mem_singleton.2 (reads_writeBinary hmask 1021)⟩) (show 2 < twoPow 32 by decide)
  have hlength : blankKey.length < twoPow 32 := by decide
  have hkey : Reads 1023 (writeBinary blankKey) (.binary blankKey) := reads_writeBinary hlength 1022
  have hempty : Reads 1023 (writeArray []) (.array []) :=
    reads_writeArray [] nofun (show 0 < twoPow 32 by decide)
  -- the six fields with what they are read as
  let items : List (Bytes × Value) :=
    [(writeArray [writeBinary address, writeBinary mask], .array [.binary address, .binary mask]),
      (writeBinary blankKey, .binary blankKey), (writeBinary blankKey, .binary blankKey),
      (writeArray [], .array []), (writeArray [], .array []), (writeNull, .null)]
  have hitems : ∀ q ∈ items, Reads 1023 q.1 q.2 := by
    simp only [items, List.forall_mem_cons]
    exact ⟨hpair, hkey, hkey, hempty, hempty, reads_writeNull 1022, nofun⟩
  have hread : Reads maxDepth (writeArray (items.map Prod.fst)) (.array (items.map Prod.snd)) :=
    reads_writeArray items hitems (show 6 < twoPow 32 by decide)
  exact ⟨_, .array (items.map Prod.snd), rawHolding address mask, unframe_frame _,
    readPayload_of_reads hread, rfl, .address rfl rfl rfl⟩

/-- **Which stored peers overflow the counter of ones.** Reading an address and a mask overflows it
if and only if the two have the same length and the mask begins with 32 bytes of ones, whatever
stands behind them. Reading a stored peer breaks off there, and for no other reason: it does so
exactly for the values in which reading comes to such a pair. Any pair is come to in some stored
peer, if only the two can be counted in 32 bits, so nothing keeps such pairs out. -/
theorem counter_exact (address mask : Bytes) (name : String) (value : Bytes) :
    (Net.ofRaw address mask = .error .overflow ↔
      address.length = mask.length ∧ List.replicate 32 0xFF <+: mask) ∧
    (decode name value = .error .brokenOff ↔
      ∃ address mask, ComesTo value (address, mask) ∧
        address.length = mask.length ∧ List.replicate 32 0xFF <+: mask) ∧
    (address.length < twoPow 32 → mask.length < twoPow 32 →
      ∃ value, ComesTo value (address, mask)) := by
  refine ⟨Net.ofRaw_eq_overflow_iff, ?_,
    fun haddress hmask => ⟨_, comesTo_rowHolding haddress hmask⟩⟩
  -- a pair at which the reading of a net breaks off is one that overflows the counter
  rw [decode_eq_brokenOff_iff, Prod.exists]
  refine exists_congr fun address => exists_congr fun mask => and_congr_right fun _ => ?_
  rw [readNet_eq_brokenOff_iff, Net.ofRaw_eq_overflow_iff, ManyOnes]

/-- An address and a mask of forty bytes, of which the mask has 256 ones and then zeros, so that no
one stands behind a zero. The counter overflows all the same. -/
theorem counter_exact_zeroTail :
    let address : Bytes := List.replicate 40 1
    let mask : Bytes := List.replicate 32 0xFF ++ List.replicate 8 0
    Net.ofRaw address mask = .error .overflow ∧ (∃ value, ComesTo value (address, mask)) ∧
      decode "zoë" (rowHolding address mask) = .error .brokenOff := by
  intro address mask
  have hlength : address.length < twoPow 32 ∧ mask.length < twoPow 32 := by decide
  have hmask : List.replicate 32 0xFF <+: mask := List.prefix_append _ _
  have h := counter_exact address mask "zoë" (rowHolding address mask)
  exact ⟨h.1.2 ⟨rfl, hmask⟩, h.2.2 hlength.1 hlength.2,
    h.2.1.2 ⟨address, mask, comesTo_rowHolding hlength.1 hlength.2, rfl, hmask⟩⟩

/-- A stored peer with an address of 32 zeros and a mask of 32 bytes of ones. The last one overflows
the counter, so nobody comes to say that no address has 32 bytes. -/
theorem not_counted_longMask :
    let address : Bytes := List.replicate 32 0
    let mask : Bytes := List.replicate 32 0xFF
    ComesTo (rowHolding address mask) (address, mask) ∧
      Net.ofRaw address mask = .error .overflow ∧
      decode "zoe" (rowHolding address mask) = .error .brokenOff ∧
      decode "zoe" (rowHolding address mask) ≠
        .error (.corrupted (.address (.invalidAddress "32-byte address"))) := by
  intro address mask
  have hcomes : ComesTo (rowHolding address mask) (address, mask) :=
    comesTo_rowHolding (by decide) (by decide)
  have hoverflow : Net.ofRaw address mask = .error .overflow :=
    Net.ofRaw_eq_overflow_iff.2 ⟨rfl, List.prefix_refl _⟩
  have hdecode : decode "zoe" (rowHolding address mask) = .error .brokenOff :=
    decode_eq_brokenOff_iff.2 ⟨_, hcomes, readNet_eq_brokenOff_iff.2 hoverflow⟩
  refine ⟨hcomes, hoverflow, hdecode, ?_⟩
  rw [hdecode]
  exact nofun

end WireKeeper.PeerIdentity
