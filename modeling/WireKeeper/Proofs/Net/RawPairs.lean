import Mathlib.Data.List.Basic
import Mathlib.Data.List.TakeWhile
import WireKeeper.Proofs.Net.Raw

/-! # Which raw pairs are nets

Two strings of bytes are read as a net if, once narrowed, they have the same length, four or
sixteen, and the bits of the mask are ones and then zeros. The net has just these bytes again. Of
all other pairs the first thing that is wrong is reported: lengths that differ, then more ones in
front than a byte can count, then a one behind a zero, then a length that no address has.

The mask is seen here as one large number, and `maskBit mask i` is the bit at a position, counted
from the front.

* `Narrows`: what a pair is narrowed to;
* `OnesThenZeros`, `HasGap`: the masks of nets and the masks with a one behind a zero, one the
  opposite of the other (`onesThenZeros_iff`);
* `ManyOnes`: the masks that overflow the counter (`lt_leadingOnes_iff`), which begin with 32 bytes
  of ones, whatever stands behind them;
* `ofRaw_eq_overflow_iff`: the pairs that overflow the counter;
* `exists_ofRaw`: two strings of one length that fit are the bytes of a net;
* `ofRaw_exact`: what becomes of every pair. -/

namespace WireKeeper

/-- An address that is read has the bytes it was read from, and is of the family whose addresses
have as many. -/
theorem Address.toBytes_of_ofBytes? {bytes : Bytes} {a : Address}
    (h : Address.ofBytes? bytes = some a) : a.toBytes = bytes ∧ a.family.size = bytes.length := by
  have hlt := bytes.toNat_lt
  rw [Address.ofBytes?] at h
  -- four bytes, or sixteen, and no other number of them
  split at h
  · next hlen =>
    cases h
    rw [hlen] at hlt
    refine ⟨?_, hlen.symm⟩
    show Bytes.ofNat 4 (bytes.toNat % twoPow 32) = bytes
    rw [Nat.mod_eq_of_lt hlt, ← hlen, Bytes.ofNat_toNat]
  · split at h
    · next hlen =>
      cases h
      rw [hlen] at hlt
      refine ⟨?_, hlen.symm⟩
      show Bytes.ofNat 16 (bytes.toNat % twoPow 128) = bytes
      rw [Nat.mod_eq_of_lt hlt, ← hlen, Bytes.ofNat_toNat]
    · cases h

namespace Net

/-! ## The bits of a mask -/

/-- The bit of a mask at a position, counted from the front. -/
def maskBit (mask : Bytes) (i : Nat) : Bool := mask.toNat.testBit (8 * mask.length - 1 - i)

/-- The bits of a mask are ones and then zeros: for some `ones`, bit `i` is one exactly if `i <
ones`. -/
def OnesThenZeros (mask : Bytes) : Prop :=
  ∃ ones ≤ 8 * mask.length, ∀ i < 8 * mask.length, maskBit mask i = decide (i < ones)

/-- A mask **has a gap** if a one stands behind a zero in it. -/
def HasGap (mask : Bytes) : Prop :=
  ∃ i j, i < j ∧ j < 8 * mask.length ∧ maskBit mask i = false ∧ maskBit mask j = true

variable {address mask : Bytes}

/-- The bits of a mask, one for each position: what is scanned is what `maskBit` says. -/
theorem maskBits_eq_map (mask : Bytes) :
    maskBits mask = (List.range (8 * mask.length)).map (maskBit mask) := by
  have h := maskBits_ofNat mask.length mask.toNat
  rwa [Bytes.ofNat_toNat] at h

/-- The bit of a mask at a position, if there is one at it. -/
theorem getElem?_maskBits (mask : Bytes) (i : Nat) :
    (maskBits mask)[i]? = if i < 8 * mask.length then some (maskBit mask i) else none := by
  rw [maskBits_eq_map, List.getElem?_map]
  split
  · next h => rw [List.getElem?_range h, Option.map_some]
  · next h => rw [List.getElem?_eq_none (by simpa using h), Option.map_none]

/-- A mask has eight bits for each byte. -/
theorem length_maskBits (mask : Bytes) : (maskBits mask).length = 8 * mask.length := by
  rw [maskBits_eq_map, List.length_map, List.length_range]

/-- No more ones stand in front than there are bits. -/
theorem leadingOnes_le (mask : Bytes) : leadingOnes mask ≤ 8 * mask.length := by
  rw [← length_maskBits]
  exact (List.takeWhile_prefix _).length_le

/-- A mask is decided by its bits: two with the same bits have the same length and make up the same
number. -/
theorem eq_of_maskBits {a b : Bytes} (h : maskBits a = maskBits b) : a = b := by
  have hlength : a.length = b.length := by
    have := congrArg List.length h
    rw [length_maskBits, length_maskBits] at this
    omega
  have hvalue : a.toNat = b.toNat := by
    refine Nat.eq_of_testBit_eq fun i => ?_
    by_cases hi : i < 8 * a.length
    · -- the bit of weight `i` stands `i` places before the end
      have hbit := congrArg (·[8 * a.length - 1 - i]?) h
      simp only [getElem?_maskBits, ← hlength] at hbit
      rw [if_pos (by omega), if_pos (by omega), Option.some_inj, maskBit, maskBit, ← hlength,
        show 8 * a.length - 1 - (8 * a.length - 1 - i) = i by omega] at hbit
      exact hbit
    · have hle : twoPow (8 * a.length) ≤ 2 ^ i := Nat.pow_le_pow_right (by decide) (by omega)
      rw [Nat.testBit_lt_two_pow (Nat.lt_of_lt_of_le a.toNat_lt hle),
        Nat.testBit_lt_two_pow (Nat.lt_of_lt_of_le b.toNat_lt (hlength ▸ hle))]
  rw [← Bytes.ofNat_toNat a, ← Bytes.ofNat_toNat b, hlength, hvalue]

/-- Behind the ones in front there is another one if and only if some zero has a one behind it. -/
theorem any_dropWhile_iff {bits : List Bool} :
    (bits.dropWhile id).any id = true ↔
      ∃ i j : Nat, i < j ∧ bits[i]? = some false ∧ bits[j]? = some true := by
  induction bits with
  | nil => simp
  | cons b bits ih =>
    cases b with
    | false =>
      -- nothing is dropped, and every one that is left stands behind this zero
      rw [List.dropWhile_cons_of_neg (by simp), List.any_eq_true]
      constructor
      · rintro ⟨x, hx, hone⟩
        obtain ⟨j, hj⟩ := List.mem_iff_getElem?.1 hx
        obtain rfl : x = true := hone
        refine ⟨0, j, Nat.pos_of_ne_zero ?_, rfl, hj⟩
        rintro rfl
        cases hj
      · rintro ⟨i, j, -, -, hj⟩
        exact ⟨true, List.mem_of_getElem? hj, rfl⟩
    | true =>
      -- a one in front is dropped, so that all positions move by one
      rw [List.dropWhile_cons_of_pos rfl, ih]
      constructor
      · rintro ⟨i, j, hij, hi, hj⟩
        exact ⟨i + 1, j + 1, Nat.succ_lt_succ hij, hi, hj⟩
      · rintro ⟨i, j, hij, hi, hj⟩
        cases i with
        | zero => cases hi
        | succ i =>
          cases j with
          | zero => omega
          | succ j => exact ⟨i, j, Nat.lt_of_succ_lt_succ hij, hi, hj⟩

/-- A mask has a gap if and only if a scan meets a one behind the ones in front. -/
theorem hasGap_iff : HasGap mask ↔ ((maskBits mask).dropWhile id).any id = true := by
  rw [any_dropWhile_iff, HasGap]
  simp only [getElem?_maskBits]
  constructor
  · rintro ⟨i, j, hij, hj, hzero, hone⟩
    exact ⟨i, j, hij, by rw [if_pos (by omega), hzero], by rw [if_pos hj, hone]⟩
  · rintro ⟨i, j, hij, hzero, hone⟩
    split at hone
    · next hj =>
      rw [if_pos (by omega)] at hzero
      exact ⟨i, j, hij, hj, Option.some.inj hzero, Option.some.inj hone⟩
    · cases hone

/-- Without a gap, the ones in front are all there are, and zeros stand behind them. -/
theorem maskBits_of_not_hasGap (h : ¬HasGap mask) :
    maskBits mask = List.replicate (leadingOnes mask) true ++
      List.replicate (8 * mask.length - leadingOnes mask) false := by
  have hones : (maskBits mask).takeWhile id = List.replicate (leadingOnes mask) true :=
    List.eq_replicate_iff.2 ⟨rfl, List.all_eq_true.1 List.all_takeWhile⟩
  have hzeros : (maskBits mask).dropWhile id =
      List.replicate (8 * mask.length - leadingOnes mask) false := by
    refine List.eq_replicate_iff.2 ⟨?_, fun b hb => ?_⟩
    · have hlength :=
        congrArg List.length (List.takeWhile_append_dropWhile (p := id) (l := maskBits mask))
      rw [List.length_append, length_maskBits, ← leadingOnes] at hlength
      omega
    · rw [hasGap_iff, List.any_eq_true, not_exists] at h
      exact Bool.eq_false_iff.2 fun hone => h b ⟨hb, hone⟩
  rw [← hones, ← hzeros, List.takeWhile_append_dropWhile]

/-- The bits of a mask are ones and then zeros if and only if there is no gap. -/
theorem onesThenZeros_iff : OnesThenZeros mask ↔ ¬HasGap mask := by
  constructor
  · rintro ⟨ones, -, hbits⟩ ⟨i, j, hij, hj, hzero, hone⟩
    rw [hbits i (by omega), decide_eq_false_iff_not] at hzero
    rw [hbits j hj, decide_eq_true_iff] at hone
    omega
  -- the ones in front are all the ones, so their number is where the zeros begin
  · intro h
    have hbits := maskBits_of_not_hasGap h
    have hlength := congrArg List.length hbits
    rw [length_maskBits, List.length_append, List.length_replicate,
      List.length_replicate] at hlength
    refine ⟨leadingOnes mask, by omega, fun i hi => ?_⟩
    have hbit := getElem?_maskBits mask i
    rw [if_pos hi, hbits, List.getElem?_append, List.length_replicate] at hbit
    split at hbit
    · next hlt =>
      rw [List.getElem?_replicate, if_pos hlt] at hbit
      rw [decide_eq_true hlt, Option.some.inj hbit]
    · next hge =>
      rw [List.getElem?_replicate, if_pos (by omega)] at hbit
      rw [decide_eq_false hge, Option.some.inj hbit]

/-! ## Masks that overflow the counter -/

/-- A mask has **many ones** if it begins with 32 bytes of ones: more in front than a byte can
count. -/
def ManyOnes (mask : Bytes) : Prop := List.replicate 32 0xFF <+: mask

/-- `maskBits` of `n` bytes `0xFF` is `8 * n` ones. -/
theorem maskBits_replicate (n : Nat) :
    maskBits (List.replicate n 0xFF) = List.replicate (8 * n) true := by
  induction n with
  | zero => rfl
  | succ n ih =>
    rw [List.replicate_succ, maskBits, List.flatMap_cons, ← maskBits, ih, Nat.mul_succ,
      Nat.add_comm, List.replicate_add]
    rfl

/-- At least `n` ones stand in front if and only if the bits begin with `n` ones. -/
theorem le_length_takeWhile_iff {bits : List Bool} {n : Nat} :
    n ≤ (bits.takeWhile id).length ↔ List.replicate n true <+: bits := by
  constructor
  · intro h
    -- what is taken is ones, and the first `n` of them are still in front
    have hones : bits.takeWhile id = List.replicate (bits.takeWhile id).length true :=
      List.eq_replicate_iff.2 ⟨rfl, List.all_eq_true.1 List.all_takeWhile⟩
    have hfirst : List.replicate n true <+: bits.takeWhile id := by
      rw [hones]
      exact ⟨List.replicate ((bits.takeWhile id).length - n) true, by
        rw [← List.replicate_add, Nat.add_sub_of_le h]⟩
    exact hfirst.trans (List.takeWhile_prefix _)
  · rintro ⟨rest, rfl⟩
    have hall : ∀ x ∈ List.replicate n true, id x = true := fun x hx =>
      (List.mem_replicate.1 hx).2
    rw [List.takeWhile_append_of_pos hall, List.length_append, List.length_replicate]
    exact Nat.le_add_right _ _

/-- The bits begin with 256 ones if and only if the bytes begin with 32 bytes of ones, as eight bits
are a byte. -/
theorem replicate_isPrefix_iff :
    List.replicate 256 true <+: maskBits mask ↔ ManyOnes mask := by
  constructor
  · intro h
    have hlength := h.length_le
    rw [List.length_replicate, length_maskBits] at hlength
    have hbits : maskBits (mask.take 32) <+: maskBits mask := by
      refine ⟨maskBits (mask.drop 32), ?_⟩
      rw [maskBits, maskBits, ← List.flatMap_append, List.take_append_drop, ← maskBits]
    have hcount : (maskBits (mask.take 32)).length = 256 := by
      rw [length_maskBits, List.length_take]
      omega
    -- two parts in front, of the same length
    have heq : maskBits (mask.take 32) = List.replicate 256 true :=
      (List.prefix_of_prefix_length_le hbits h (by rw [hcount, List.length_replicate])).eq_of_length
        (by rw [hcount, List.length_replicate])
    rw [← maskBits_replicate 32] at heq
    rw [ManyOnes, ← eq_of_maskBits heq]
    exact List.take_prefix 32 mask
  · rintro ⟨rest, rfl⟩
    rw [maskBits, List.flatMap_append, ← maskBits, maskBits_replicate]
    exact List.prefix_append _ _

/-- `255 < leadingOnes mask ↔ ManyOnes mask`: the counter has no room for the ones in front exactly
if the mask begins with 32 bytes of ones. -/
theorem lt_leadingOnes_iff : 255 < leadingOnes mask ↔ ManyOnes mask :=
  le_length_takeWhile_iff.trans replicate_isPrefix_iff

/-- A mask with at most 255 ones, wherever they stand, does not begin with 32 bytes of ones. -/
theorem not_manyOnes_of_count (h : (maskBits mask).count true ≤ 255) :
    ¬ManyOnes mask := by
  intro hones
  -- the 256 ones in front are among all ones
  have hle := (replicate_isPrefix_iff.2 hones).sublist.count_le true
  rw [List.count_replicate_self] at hle
  omega

/-! ## Narrowing -/

/-- What a pair of raw bytes is narrowed to. A pair of a short and a long part loses twelve bytes of
the long one, if they say nothing. -/
inductive Narrows : Bytes → Bytes → Bytes → Bytes → Prop
  /-- A wide mask that begins with ones, beside four bytes. -/
  | wideMask {address tail : Bytes} (haddress : address.length = 4) (htail : tail.length = 4) :
      Narrows address (List.replicate 12 0xFF ++ tail) address tail
  /-- A mapped address, beside a mask of four bytes. -/
  | mappedAddress {tail mask : Bytes} (htail : tail.length = 4) (hmask : mask.length = 4) :
      Narrows (mappedStart ++ tail) mask tail mask
  /-- Any other pair. -/
  | same {address mask : Bytes}
      (hmask :
        ¬∃ tail, address.length = 4 ∧ tail.length = 4 ∧ mask = List.replicate 12 0xFF ++ tail)
      (haddress : ¬∃ tail, mask.length = 4 ∧ tail.length = 4 ∧ address = mappedStart ++ tail) :
      Narrows address mask address mask

/-- Every pair is narrowed to some pair, if only to itself. -/
theorem exists_narrows (address mask : Bytes) : ∃ i m, Narrows address mask i m := by
  by_cases hmask : ∃ tail, address.length = 4 ∧ tail.length = 4 ∧
      mask = List.replicate 12 0xFF ++ tail
  · obtain ⟨tail, h4, htail, rfl⟩ := hmask
    exact ⟨_, _, .wideMask h4 htail⟩
  by_cases haddress : ∃ tail, mask.length = 4 ∧ tail.length = 4 ∧ address = mappedStart ++ tail
  · obtain ⟨tail, h4, htail, rfl⟩ := haddress
    exact ⟨_, _, .mappedAddress htail h4⟩
  exact ⟨_, _, .same hmask haddress⟩

/-- Sixteen bytes of which the first twelve are known, and four behind them. -/
theorem eq_append_of_take {bytes start : Bytes} (hlength : bytes.length = 16)
    (htake : bytes.take 12 = start) :
    (bytes.drop 12).length = 4 ∧ bytes = start ++ bytes.drop 12 := by
  rw [List.length_drop, hlength, ← htake, List.take_append_drop]
  exact ⟨rfl, rfl⟩

/-- A pair is narrowed in one way, the one that reading takes: `narrowRaw address mask = (i, m)`. -/
theorem Narrows.eq {i m : Bytes} (h : Narrows address mask i m) :
    narrowRaw address mask = (i, m) := by
  cases h with
  | wideMask haddress htail =>
    simp [narrowRaw, haddress, htail]
  | mappedAddress htail hmask =>
    simp [narrowRaw, mappedStart, htail, hmask]
  | same hmask haddress =>
    -- neither of the two tests of reading is passed
    have hwide : ¬(mask.length = 16 ∧ address.length = 4 ∧ (mask.take 12).all (· == 0xFF)) := by
      rintro ⟨h16, h4, hall⟩
      have hones : mask.take 12 = List.replicate 12 0xFF := by
        refine List.eq_replicate_iff.2 ⟨by rw [List.length_take, h16]; rfl, fun b hb => ?_⟩
        exact beq_iff_eq.1 (List.all_eq_true.1 hall b hb)
      exact hmask ⟨_, h4, eq_append_of_take h16 hones⟩
    have hmapped : ¬(mask.length = 4 ∧ address.length = 16 ∧ address.take 12 = mappedStart) := by
      rintro ⟨h4, h16, hstart⟩
      exact haddress ⟨_, h4, eq_append_of_take h16 hstart⟩
    simp only [narrowRaw, if_neg hwide, if_neg hmapped]

/-- What a pair is narrowed to has few ones in its mask if the mask had few before. -/
theorem Narrows.not_manyOnes {i m : Bytes} (h : Narrows address mask i m)
    (hcount : (maskBits mask).count true ≤ 255) : ¬ManyOnes m := by
  cases h with
  | wideMask _ htail =>
    -- four bytes are too short
    intro hones
    have hle := hones.length_le
    rw [List.length_replicate, htail] at hle
    omega
  | mappedAddress _ _ => exact not_manyOnes_of_count hcount
  | same _ _ => exact not_manyOnes_of_count hcount

/-! ## Reading a narrowed pair -/

section Outcomes

variable {i m : Bytes} (h : narrowRaw address mask = (i, m))

include h

/-- Different lengths are refused, before anything is counted, and the error names both. -/
theorem ofRaw_of_length_ne (hlength : i.length ≠ m.length) :
    ofRaw address mask = .error (.refused (.lengthMismatch i.length m.length)) := by
  rw [ofRaw, h]
  simp only
  rw [if_pos hlength]
  rfl

/-- Of equal lengths, the mask is read before the address, and then the two are put together. -/
theorem ofRaw_of_length_eq (hlength : i.length = m.length) :
    ofRaw address mask = lengthOfMask m >>= fun p =>
      (Address.ofBytes i).mapError .refused >>= fun a =>
        match make? a p with
        | some net => .ok net
        | none => .error (.refused (.invalidNet "invalid IP prefix length")) := by
  rw [ofRaw, h]
  simp only
  rw [if_neg (not_not_intro hlength)]
  rfl

/-- Too many ones in front overflow the counter, whatever the length and whatever stands behind
them. -/
theorem ofRaw_of_overflow (hlength : i.length = m.length) (hones : ManyOnes m) :
    ofRaw address mask = .error .overflow := by
  rw [ofRaw_of_length_eq h hlength, lengthOfMask_eq, if_pos (lt_leadingOnes_iff.2 hones)]
  rfl

/-- A gap is refused, whatever the length, if the ones in front of it can be counted. -/
theorem ofRaw_of_hasGap (hlength : i.length = m.length) (hfew : ¬ManyOnes m)
    (hgap : HasGap m) : ofRaw address mask = .error (.refused .gapInMask) := by
  rw [ofRaw_of_length_eq h hlength, lengthOfMask_eq,
    if_neg fun hmany => hfew (lt_leadingOnes_iff.1 hmany), if_pos (hasGap_iff.1 hgap)]
  rfl

/-- A mask without a gap counts as its ones, and then the address is read. -/
theorem ofRaw_of_not_hasGap (hlength : i.length = m.length)
    (hfew : ¬ManyOnes m) (hgap : ¬HasGap m) :
    ofRaw address mask = (Address.ofBytes i).mapError .refused >>= fun a =>
      match make? a (leadingOnes m) with
      | some net => .ok net
      | none => .error (.refused (.invalidNet "invalid IP prefix length")) := by
  rw [ofRaw_of_length_eq h hlength, lengthOfMask_eq,
    if_neg fun hmany => hfew (lt_leadingOnes_iff.1 hmany),
    if_neg fun hany => hgap (hasGap_iff.2 hany)]
  rfl

/-- A length that no address has is refused, if nothing is wrong with the mask. -/
theorem ofRaw_of_size (hlength : i.length = m.length) (hfew : ¬ManyOnes m)
    (hgap : ¬HasGap m) (hsize : ¬(i.length = 4 ∨ i.length = 16)) :
    ofRaw address mask = .error (.refused (.invalidAddress s!"{i.length}-byte address")) := by
  have hnone : Address.ofBytes? i = none := by
    rw [Address.ofBytes?, if_neg fun h4 => hsize (.inl h4), if_neg fun h16 => hsize (.inr h16)]
  rw [ofRaw_of_not_hasGap h hlength hfew hgap, Address.ofBytes, hnone]
  rfl

omit h in
/-- The bytes of an address are too few for 256 ones: they have 128 bits at most. -/
theorem not_manyOnes_of_size (hlength : i.length = m.length)
    (hsize : i.length = 4 ∨ i.length = 16) : ¬ManyOnes m := by
  intro hones
  have hle := hones.length_le
  rw [List.length_replicate] at hle
  omega

/-- Anything else is a net with just these bytes: `net.toRaw = (i, m)`. -/
theorem exists_ofRaw (hlength : i.length = m.length) (hgap : ¬HasGap m)
    (hsize : i.length = 4 ∨ i.length = 16) :
    ∃ net, ofRaw address mask = .ok net ∧ net.toRaw = (i, m) := by
  obtain ⟨a, ha⟩ : ∃ a, Address.ofBytes? i = some a := by
    rw [Address.ofBytes?]
    rcases hsize with h4 | h16
    · exact ⟨_, if_pos h4⟩
    · exact ⟨_, (if_neg (by omega)).trans (if_pos h16)⟩
  obtain ⟨hbytes, hfamily⟩ := Address.toBytes_of_ofBytes? ha
  have hbits := maskBits_of_not_hasGap hgap
  have hones := leadingOnes_le m
  have hwidth : leadingOnes m ≤ a.family.width := by rwa [width_eq_size, hfamily, hlength]
  have hmake : make? a (leadingOnes m) = some ⟨a, leadingOnes m, hwidth⟩ := dif_pos hwidth
  refine ⟨⟨a, leadingOnes m, hwidth⟩, ?_, Prod.ext hbytes (eq_of_maskBits ?_)⟩
  · rw [ofRaw_of_not_hasGap h hlength (not_manyOnes_of_size hlength hsize) hgap, Address.ofBytes,
      ha]
    show (match make? a (leadingOnes m) with | some net => _ | none => _) = _
    rw [hmake]
  · -- the mask of the net has the same ones and the same zeros
    rw [toRaw, maskBits_netMask, hbits, hostLength, width_eq_size, hfamily, hlength]

/-- Only too many ones in front overflow the counter: no other reading breaks off. -/
theorem ofRaw_eq_overflow_of_narrowRaw :
    ofRaw address mask = .error .overflow ↔ i.length = m.length ∧ ManyOnes m := by
  constructor
  · intro hoverflow
    by_contra hother
    -- in every other case something else is said
    by_cases hlength : i.length = m.length
    · have hfew : ¬ManyOnes m := fun hones => hother ⟨hlength, hones⟩
      by_cases hgap : HasGap m
      · rw [ofRaw_of_hasGap h hlength hfew hgap] at hoverflow
        cases hoverflow
      · by_cases hsize : i.length = 4 ∨ i.length = 16
        · obtain ⟨net, hnet, -⟩ := exists_ofRaw h hlength hgap hsize
          rw [hnet] at hoverflow
          cases hoverflow
        · rw [ofRaw_of_size h hlength hfew hgap hsize] at hoverflow
          cases hoverflow
    · rw [ofRaw_of_length_ne h hlength] at hoverflow
      cases hoverflow
  · rintro ⟨hlength, hones⟩
    exact ofRaw_of_overflow h hlength hones

end Outcomes

/-- `ofRaw address mask` overflows exactly if the two have the same length and the mask begins with
32 bytes of ones. A pair that is narrowed has four bytes left, which are too few. -/
theorem ofRaw_eq_overflow_iff :
    ofRaw address mask = .error .overflow ↔ address.length = mask.length ∧ ManyOnes mask := by
  obtain ⟨i, m, hnarrows⟩ := exists_narrows address mask
  rw [ofRaw_eq_overflow_of_narrowRaw hnarrows.eq]
  -- a pair that is narrowed had two lengths, and has four bytes of each kind now
  cases hnarrows with
  | wideMask haddress htail =>
    refine iff_of_false ?_ ?_
    · rintro ⟨-, hones⟩
      exact not_manyOnes_of_size (haddress.trans htail.symm) (.inl haddress) hones
    · rintro ⟨hlength, -⟩
      rw [List.length_append, List.length_replicate, htail, haddress] at hlength
      omega
  | mappedAddress htail hmask =>
    refine iff_of_false ?_ ?_
    · rintro ⟨-, hones⟩
      exact not_manyOnes_of_size (htail.trans hmask.symm) (.inl htail) hones
    · rintro ⟨hlength, -⟩
      rw [List.length_append, mappedStart, List.length_append, List.length_replicate, htail,
        hmask] at hlength
      simp at hlength
  | same _ _ => exact Iff.rfl

/-- **Every pair of raw bytes is read exactly.** It is narrowed to one pair, which the net has for
its own bytes if it is read. It is read if and only if, once narrowed, both lengths are four or both
sixteen, and the bits of the mask are ones and then zeros. Otherwise the lengths differ, or there
are too many ones in front to count them in a byte, or a one stands behind a zero, or no address has
such a length, and the first of these is reported. A mask with at most 255 ones, wherever they
stand, never has too many in front. Every net is read back from its own bytes. -/
theorem ofRaw_exact :
    (∀ address mask : Bytes, ∃ i m, Narrows address mask i m) ∧
    (∀ address mask i m : Bytes, Narrows address mask i m →
      ((maskBits mask).count true ≤ 255 → ¬ManyOnes m) ∧
      (∀ net, ofRaw address mask = .ok net → net.toRaw = (i, m)) ∧
      ((∃ net, ofRaw address mask = .ok net) ↔
        i.length = m.length ∧ (i.length = 4 ∨ i.length = 16) ∧ OnesThenZeros m) ∧
      (ofRaw address mask = .error (.refused (.lengthMismatch i.length m.length)) ↔
        i.length ≠ m.length) ∧
      (ofRaw address mask = .error .overflow ↔
        i.length = m.length ∧ ManyOnes m) ∧
      (ofRaw address mask = .error (.refused .gapInMask) ↔
        i.length = m.length ∧ ¬ManyOnes m ∧ HasGap m) ∧
      (ofRaw address mask = .error (.refused (.invalidAddress s!"{i.length}-byte address")) ↔
        i.length = m.length ∧ ¬ManyOnes m ∧ ¬HasGap m ∧
          ¬(i.length = 4 ∨ i.length = 16))) ∧
    ∀ net : Net, ofRaw net.toRaw.1 net.toRaw.2 = .ok net := by
  refine ⟨exists_narrows, fun address mask i m hnarrows => ⟨hnarrows.not_manyOnes, ?_⟩, ofRaw_toRaw⟩
  have h := hnarrows.eq
  rw [onesThenZeros_iff]
  -- the cases are the checks in their order
  by_cases hlength : i.length = m.length
  · by_cases hones : ManyOnes m
    · have hsize : ¬(m.length = 4 ∨ m.length = 16) := fun hsize =>
        not_manyOnes_of_size hlength (hlength ▸ hsize) hones
      rw [ofRaw_of_overflow h hlength hones]
      simp [hlength, hones, hsize]
    · by_cases hgap : HasGap m
      · rw [ofRaw_of_hasGap h hlength hones hgap]
        simp [hlength, hones, hgap]
      · by_cases hsize : i.length = 4 ∨ i.length = 16
        · obtain ⟨net, hnet, hraw⟩ := exists_ofRaw h hlength hgap hsize
          rw [hnet]
          refine ⟨?_, ?_⟩
          · rintro net' ⟨⟩
            exact hraw
          · simp [hlength, hones, hgap, hlength ▸ hsize]
        · rw [ofRaw_of_size h hlength hones hgap hsize]
          simp [hlength, hones, hgap, hlength ▸ hsize]
  · rw [ofRaw_of_length_ne h hlength]
    simp [hlength]

/-- A net whose mask is kept in sixteen bytes, and a pair of which both the mask and the length are
wrong: the mask is reported. -/
theorem ofRaw_wideMask :
    (∃ net, ofRaw [10, 9, 8, 7] (List.replicate 12 0xFF ++ [255, 255, 240, 0]) = .ok net ∧
      net.toRaw = ([10, 9, 8, 7], [255, 255, 240, 0])) ∧
    (maskBits [255, 1]).count true ≤ 255 ∧
    ofRaw [1, 2] [255, 1] = .error (.refused .gapInMask) := by
  have hwide := ofRaw_exact.2.1 [10, 9, 8, 7] _ _ _ (@Narrows.wideMask _ [255, 255, 240, 0] rfl rfl)
  have hshort := ofRaw_exact.2.1 [1, 2] [255, 1] _ _ (.same (by simp) (by simp))
  obtain ⟨net, hnet⟩ := hwide.2.2.1.2 ⟨rfl, .inl rfl, 20, by decide, by decide⟩
  have hfew : (maskBits [255, 1]).count true ≤ 255 := by decide
  exact ⟨⟨net, hnet, hwide.2.1 net hnet⟩, hfew,
    hshort.2.2.2.2.2.1.2 ⟨rfl, hshort.1 hfew, 8, 15, by decide⟩⟩

end Net

end WireKeeper
