import WireKeeper.Net.Subnet
import WireKeeper.Proofs.Bytes.Number

/-! # Nets as raw bytes

A net is read back from the bytes of its address and of its mask: the mask has as many ones as the
prefix is long, and zeros behind them, and a pair of equal lengths is never narrowed.

* `Net.foldlM_step`, `Net.lengthOfMask_eq`: what a scan of a mask counts, and where it overflows;
* `Address.ofBytes_toBytes`, `Net.ofRaw_toRaw`: an address and a net are read back. -/

namespace WireKeeper

namespace Address

/-- An address fits into its bytes: four for a small one, sixteen for a large one. -/
theorem value_lt_size (a : Address) : a.value < twoPow (8 * a.family.size) := by
  have h := a.value_lt
  cases hf : a.family <;> rw [hf] at h <;> exact h

/-- The address that its own number makes up is the address. -/
theorem ofNat_value (a : Address) : ofNat a.family a.value = a :=
  ext_value rfl (Nat.mod_eq_of_lt a.value_lt)

/-- An address is read back from its bytes, as their number tells its family. -/
theorem ofBytes?_toBytes (a : Address) : ofBytes? a.toBytes = some a := by
  have hvalue : Bytes.toNat a.toBytes = a.value := Bytes.toNat_ofNat_of_lt a.value_lt_size
  have hback := a.ofNat_value
  rw [ofBytes?, length_toBytes, hvalue]
  cases hf : a.family with
  | v4 => rw [if_pos (by decide), ← hf, hback]
  | v6 => rw [if_neg (by decide), if_pos (by decide), ← hf, hback]

/-- An address is read back from its bytes, and there is no error: `ofBytes a.toBytes = .ok a`. -/
theorem ofBytes_toBytes (a : Address) : ofBytes a.toBytes = .ok a := by
  rw [ofBytes, ofBytes?_toBytes]

end Address

namespace Net

/-! ## The bits of a mask -/

/-- The bits of the bytes of a number are the bits of the number, the most significant first. The
induction is on the number of bytes. -/
theorem maskBits_ofNat (size n : Nat) :
    maskBits (Bytes.ofNat size n) =
      (List.range (8 * size)).map fun i => n.testBit (8 * size - 1 - i) := by
  induction size generalizing n with
  | zero => rfl
  | succ size ih =>
    have hlow : byteBits (UInt8.ofNat n) = (List.range 8).map fun i => n.testBit (7 - i) := by
      refine List.map_congr_left fun i hi => ?_
      have hi := List.mem_range.1 hi
      rw [UInt8.toNat_ofNat', Nat.testBit_mod_two_pow, decide_eq_true (by omega), Bool.true_and]
    have hhigh : (List.range (8 * size)).map (fun i => (n / 256).testBit (8 * size - 1 - i)) =
        (List.range (8 * size)).map fun i => n.testBit (8 * (size + 1) - 1 - i) := by
      refine List.map_congr_left fun i hi => ?_
      have hi := List.mem_range.1 hi
      rw [show 256 = 2 ^ 8 from rfl, Nat.testBit_div_two_pow]
      congr 1
      omega
    -- the last byte has the low eight bits, and the bytes in front of it those of `n / 256`
    rw [Bytes.ofNat, maskBits, List.flatMap_append, ← maskBits, ih, hhigh, List.flatMap_singleton,
      hlow, Nat.mul_succ, List.range_add, List.map_append, List.map_map]
    congr 1
    refine List.map_congr_left fun i hi => ?_
    have hi := List.mem_range.1 hi
    rw [Function.comp_apply]
    congr 1
    omega

/-- The prefix and the host part make up the width of the family: `prefixLength + hostLength =
width`. -/
theorem prefixLength_add_hostLength (net : Net) :
    net.prefixLength + net.hostLength = net.address.family.width :=
  Nat.add_sub_of_le net.prefixLength_le

/-- There are eight bits to each byte of an address: `family.width = 8 * family.size`. -/
theorem width_eq_size (family : Family) : family.width = 8 * family.size := by
  cases family <;> rfl

/-- The bits of a net's mask: the ones of the prefix and the zeros of the host part. -/
theorem maskBits_netMask (net : Net) :
    maskBits (Bytes.ofNat net.address.family.size net.netMask) =
      List.replicate net.prefixLength true ++ List.replicate net.hostLength false := by
  have hwidth := net.prefixLength_add_hostLength
  rw [maskBits_ofNat, ← width_eq_size, ← hwidth, List.range_add, List.map_append, List.map_map]
  -- the bits in front of the end of the prefix, and those behind it
  congr 1
  · rw [List.eq_replicate_iff]
    refine ⟨by rw [List.length_map, List.length_range], fun b hb => ?_⟩
    obtain ⟨i, hi, rfl⟩ := List.mem_map.1 hb
    have hi := List.mem_range.1 hi
    rw [netMask, Nat.testBit_shiftLeft, twoPow, Nat.pow_eq, Nat.testBit_two_pow_sub_one,
      decide_eq_true (by omega), decide_eq_true (by omega), Bool.and_self]
  · rw [List.eq_replicate_iff]
    refine ⟨by rw [List.length_map, List.length_range], fun b hb => ?_⟩
    obtain ⟨i, hi, rfl⟩ := List.mem_map.1 hb
    have hi := List.mem_range.1 hi
    rw [Function.comp_apply, netMask, Nat.testBit_shiftLeft, decide_eq_false (by omega),
      Bool.false_and]

/-! ## Scanning a mask -/

/-- How many ones stand in front of the first zero of a mask. -/
def leadingOnes (mask : Bytes) : Nat := ((maskBits mask).takeWhile id).length

/-- Behind a zero a scan stops at the first one, and counts nothing: the counter `c` stays. -/
theorem foldlM_step_behind (c : UInt8) (bits : List Bool) :
    bits.foldlM MaskScan.step ⟨c, true⟩ =
      if bits.any id then .error (.refused .gapInMask) else .ok ⟨c, true⟩ := by
  induction bits with
  | nil => rfl
  | cons bit bits ih =>
    cases bit with
    | true => rfl
    | false => exact ih

/-- A scan that has counted `c` ones and met no zero counts the ones in front. It overflows if there
are more than `255 - c` of them, whatever stands behind; otherwise it looks for another one behind
the zeros. -/
theorem foldlM_step (c : UInt8) (bits : List Bool) :
    bits.foldlM MaskScan.step ⟨c, false⟩ =
      if 255 < c.toNat + (bits.takeWhile id).length then .error .overflow
      else if (bits.dropWhile id).any id then .error (.refused .gapInMask)
      else .ok ⟨c + UInt8.ofNat (bits.takeWhile id).length, !(bits.dropWhile id).isEmpty⟩ := by
  have hcount (c : UInt8) : ¬255 < c.toNat + ([] : List Bool).length := by
    have := c.toNat_lt
    rw [List.length_nil]
    omega
  -- the induction is on the bits, with the count so far left open
  induction bits generalizing c with
  | nil =>
    rw [List.takeWhile_nil, if_neg (hcount c)]
    show Except.ok _ = Except.ok (⟨c + 0, false⟩ : MaskScan)
    rw [UInt8.add_zero]
  | cons bit bits ih =>
    cases bit with
    | true =>
      rw [List.dropWhile_cons_of_pos rfl, List.takeWhile_cons_of_pos rfl, List.length_cons,
        List.foldlM_cons]
      by_cases hfull : c = 255
      · -- the counter is full, and the one that comes is one too many
        subst hfull
        rw [if_pos (by show 255 < 255 + _; omega)]
        rfl
      · have hlt : c.toNat < 255 :=
          Nat.lt_of_le_of_ne (Nat.le_of_lt_succ c.toNat_lt) fun h => hfull (UInt8.toNat_inj.1 h)
        have hnext : (c + 1).toNat = c.toNat + 1 := by
          rw [UInt8.toNat_add]
          exact Nat.mod_eq_of_lt (by show c.toNat + 1 < 256; omega)
        have hstep : MaskScan.step ⟨c, false⟩ true = .ok ⟨c + 1, false⟩ := by
          rw [MaskScan.step, if_neg Bool.false_ne_true, if_neg hfull]
        rw [hstep]
        refine (ih (c + 1)).trans ?_
        rw [hnext, Nat.add_assoc, Nat.add_comm 1, UInt8.ofNat_add,
          UInt8.add_comm (UInt8.ofNat _), ← UInt8.add_assoc]
        rfl
    | false =>
      refine (foldlM_step_behind c bits).trans ?_
      rw [List.dropWhile_cons_of_neg Bool.false_ne_true,
        List.takeWhile_cons_of_neg Bool.false_ne_true, if_neg (hcount c)]
      show _ = if bits.any id then _ else Except.ok (⟨c + 0, true⟩ : MaskScan)
      rw [UInt8.add_zero]

/-- `lengthOfMask mask` is the number of ones in front. More than 255 of them overflow the counter,
and that is found first; then a one behind a zero is refused. -/
theorem lengthOfMask_eq (mask : Bytes) :
    lengthOfMask mask =
      if 255 < leadingOnes mask then .error .overflow
      else if ((maskBits mask).dropWhile id).any id then .error (.refused .gapInMask)
      else .ok (leadingOnes mask) := by
  have hzero : (0 : UInt8).toNat + leadingOnes mask = leadingOnes mask := Nat.zero_add _
  rw [lengthOfMask, MaskScan.start, foldlM_step, ← leadingOnes, hzero]
  split
  · rfl
  · next hfew =>
    split
    · rfl
    · show Except.ok (0 + UInt8.ofNat _).toNat = _
      rw [UInt8.zero_add, UInt8.toNat_ofNat', Nat.mod_eq_of_lt (by omega)]

/-- A mask of ones and then zeros stands for the number of the ones, if a byte holds it: `ones <
256`. -/
theorem lengthOfMask_of_maskBits {mask : Bytes} {ones zeros : Nat} (hones : ones < 256)
    (h : maskBits mask = List.replicate ones true ++ List.replicate zeros false) :
    lengthOfMask mask = .ok ones := by
  have hall : ∀ x ∈ List.replicate ones true, id x = true := fun x hx =>
    (List.mem_replicate.1 hx).2
  have hcount : leadingOnes mask = ones := by
    rw [leadingOnes, h, List.takeWhile_append_of_pos hall]
    cases zeros <;> simp [List.replicate_succ]
  have hbehind : ((maskBits mask).dropWhile id).any id = false := by
    rw [h, List.dropWhile_append_of_pos hall]
    cases zeros <;> simp [List.replicate_succ]
  rw [lengthOfMask_eq, hcount, hbehind, if_neg (by omega), if_neg (by decide)]

/-- The mask of a net stands for the prefix length of the net, which a byte holds. -/
theorem lengthOfMask_netMask (net : Net) :
    lengthOfMask (Bytes.ofNat net.address.family.size net.netMask) = .ok net.prefixLength := by
  have hwidth : net.address.family.width ≤ 128 := by
    cases net.address.family <;> decide
  exact lengthOfMask_of_maskBits (by have := net.prefixLength_le; omega) net.maskBits_netMask

/-! ## The pair of address and mask -/

/-- A pair of equal lengths is not narrowed, whatever its mask looks like. -/
theorem narrowRaw_of_length_eq {address mask : Bytes} (h : address.length = mask.length) :
    narrowRaw address mask = (address, mask) := by
  have hmask : ¬(mask.length = 16 ∧ address.length = 4 ∧ (mask.take 12).all (· == 0xFF)) :=
    fun ⟨h16, h4, _⟩ => by omega
  have haddress : ¬(mask.length = 4 ∧ address.length = 16 ∧ address.take 12 = mappedStart) :=
    fun ⟨h4, h16, _⟩ => by omega
  simp only [narrowRaw, if_neg hmask, if_neg haddress]

/-- `ofRaw net.toRaw = .ok net`: every net is read back from its raw bytes. -/
theorem ofRaw_toRaw (net : Net) : ofRaw net.toRaw.1 net.toRaw.2 = .ok net := by
  have hlen : net.address.toBytes.length =
      (Bytes.ofNat net.address.family.size net.netMask).length := by
    rw [Address.length_toBytes, Bytes.length_ofNat]
  have hmake : make? net.address net.prefixLength = some net := dif_pos net.prefixLength_le
  rw [toRaw, ofRaw, narrowRaw_of_length_eq hlen]
  simp only
  rw [if_neg (not_not_intro hlen), lengthOfMask_netMask, Address.ofBytes_toBytes]
  simp only [bind, Except.bind, Except.mapError, hmake]
  rfl

end Net

end WireKeeper
