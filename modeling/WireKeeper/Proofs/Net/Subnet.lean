import WireKeeper.Net.Subnet
import WireKeeper.Proofs.Bytes.Number
import WireKeeper.Proofs.Net.Raw

/-! # Nets as ranges of numbers

The number of an address divided by the number of host addresses says which network it is in. So a
net contains the addresses of its family from `value / n * n` to `value / n * n + (n - 1)`, where
`n` is the number of its host addresses.

* `contains_iff`, `value_network`, `value_last`: membership, the lowest and the highest address;
* `Address.add?_eq`: a step adds to the number, with or without halves;
* `next_host`: the net after a single host. -/

namespace WireKeeper

/-! ## Masks -/

/-- A mask of `p` ones above `h` zeros rounds down to a multiple of `2 ^ h`. -/
theorem and_shiftLeft_ones {v p h : Nat} (hv : v < twoPow (p + h)) :
    v &&& ((twoPow p - 1) <<< h) = v / twoPow h * twoPow h := by
  rw [show v / twoPow h * twoPow h = (v / twoPow h) <<< h from (Nat.shiftLeft_eq _ _).symm]
  -- bit by bit: below `h` all are cleared, and above the ones of the mask `v` has none
  refine Nat.eq_of_testBit_eq fun i => ?_
  rw [Nat.testBit_and, Nat.testBit_shiftLeft, Nat.testBit_shiftLeft, twoPow, twoPow, Nat.pow_eq,
    Nat.pow_eq, Nat.testBit_two_pow_sub_one, Nat.testBit_div_two_pow]
  by_cases hi : h ≤ i
  · rw [decide_eq_true hi, Bool.true_and, Bool.true_and, Nat.sub_add_cancel hi]
    by_cases hp : i - h < p
    · rw [decide_eq_true hp, Bool.and_true]
    · have hbit : v.testBit i = false :=
        Nat.testBit_lt_two_pow (Nat.lt_of_lt_of_le hv
          (Nat.pow_le_pow_right (by decide) (by omega)))
      rw [hbit, Bool.false_and]
  · rw [decide_eq_false hi, Bool.false_and, Bool.false_and, Bool.and_false]

/-- A mask of `h` ones fills up to the last number before the next multiple of `2 ^ h`. -/
theorem or_ones (v h : Nat) :
    v ||| (twoPow h - 1) = v / twoPow h * twoPow h + (twoPow h - 1) := by
  have hlt : 2 ^ h - 1 < 2 ^ h := Nat.sub_one_lt (Nat.ne_of_gt (Nat.two_pow_pos h))
  rw [Nat.mul_comm, twoPow, Nat.pow_eq, Nat.two_pow_add_eq_or_of_lt hlt]
  refine Nat.eq_of_testBit_eq fun i => ?_
  rw [Nat.testBit_or, Nat.testBit_or, Nat.testBit_two_pow_sub_one, Nat.testBit_two_pow_mul,
    Nat.testBit_div_two_pow]
  by_cases hi : i < h
  · rw [decide_eq_true hi, Bool.or_true, Bool.or_true]
  · have hle := Nat.le_of_not_lt hi
    rw [decide_eq_true hle, Bool.true_and, Nat.sub_add_cancel hle]

namespace Net

/-- The number of addresses of a net: two to the number of bits behind the prefix. -/
def hosts (net : Net) : Nat := twoPow net.hostLength

/-- There is at least one address in a net. -/
theorem hosts_pos (net : Net) : 0 < net.hosts := twoPow_pos _

/-- The network part of an address of the family, under the mask of a net:
`value / hosts * hosts`. -/
theorem and_netMask {net : Net} {a : Address} (h : a.family = net.address.family) :
    a.value &&& net.netMask = a.value / net.hosts * net.hosts := by
  refine and_shiftLeft_ones ?_
  rw [net.prefixLength_add_hostLength, ← h]
  exact a.value_lt

/-- A net contains the addresses of its family with its network part: those with the same `value /
hosts`. -/
theorem contains_iff {net : Net} {a : Address} :
    net.contains a = true ↔
      a.family = net.address.family ∧ a.value / net.hosts = net.address.value / net.hosts := by
  rw [contains, Bool.and_eq_true, decide_eq_true_iff, beq_iff_eq]
  refine and_congr_right fun h => ?_
  rw [and_netMask h, and_netMask rfl]
  exact ⟨Nat.eq_of_mul_eq_mul_right net.hosts_pos, congrArg (· * net.hosts)⟩

/-- The number of the lowest address: that of the net, rounded down to a multiple of `hosts`. -/
theorem value_network (net : Net) :
    net.network.address.value = net.address.value / net.hosts * net.hosts := by
  show (net.address.value &&& net.netMask) % twoPow net.address.family.width = _
  rw [and_netMask rfl]
  exact Nat.mod_eq_of_lt (Nat.lt_of_le_of_lt (Nat.div_mul_le_self _ _) net.address.value_lt)

/-- The network has as many addresses as the net. -/
@[simp] theorem hosts_network (net : Net) : net.network.hosts = net.hosts := rfl

/-- The network is of the same family as the net. -/
@[simp] theorem family_network (net : Net) : net.network.address.family = net.address.family := rfl

/-- The network contains the same addresses as the net. -/
@[simp] theorem contains_network (net : Net) (a : Address) :
    net.network.contains a = net.contains a := by
  rw [Bool.eq_iff_iff, contains_iff, contains_iff, value_network, hosts_network, family_network,
    Nat.mul_div_cancel _ net.hosts_pos]

/-- A net contains its own address. -/
theorem contains_self (net : Net) : net.contains net.address = true := contains_iff.2 ⟨rfl, rfl⟩

/-- The network parts of the family are full: the highest address of a net is one of its family. -/
theorem value_last_lt (net : Net) :
    net.address.value / net.hosts * net.hosts + (net.hosts - 1) <
      twoPow net.address.family.width := by
  have hwidth : twoPow net.address.family.width = twoPow net.prefixLength * net.hosts := by
    rw [← net.prefixLength_add_hostLength, twoPow_add]
    rfl
  have hdiv : net.address.value / net.hosts < twoPow net.prefixLength := by
    rw [Nat.div_lt_iff_lt_mul net.hosts_pos, ← hwidth]
    exact net.address.value_lt
  have hpos := net.hosts_pos
  have hle := Nat.mul_le_mul_right net.hosts (Nat.succ_le_of_lt hdiv)
  rw [Nat.succ_mul] at hle
  omega

/-- The number of the highest address: that of the lowest one and `hosts - 1`. -/
theorem value_last (net : Net) :
    net.last.value = net.address.value / net.hosts * net.hosts + (net.hosts - 1) := by
  show (net.address.value ||| net.hostMask) % twoPow net.address.family.width = _
  rw [hostMask, or_ones]
  exact Nat.mod_eq_of_lt net.value_last_lt

/-- A net contains the addresses of the family from its network to its last one, and no others. -/
theorem contains_iff_between {net : Net} {a : Address} :
    net.contains a = true ↔ a.family = net.address.family ∧
      net.network.address.value ≤ a.value ∧ a.value ≤ net.last.value := by
  rw [contains_iff, Nat.div_eq_iff net.hosts_pos, value_network, value_last,
    Nat.add_sub_assoc net.hosts_pos]

/-- In the same network, the host part orders addresses as their numbers do. -/
theorem hostBits_lt_iff {net : Net} {a b : Address} (ha : net.contains a = true)
    (hb : net.contains b = true) : net.hostBits a < net.hostBits b ↔ a.value < b.value := by
  obtain ⟨hfa, hna⟩ := contains_iff.1 ha
  obtain ⟨hfb, hnb⟩ := contains_iff.1 hb
  rw [hostBits_eq_mod net a hfa, hostBits_eq_mod net b hfb]
  have hda := Nat.div_add_mod a.value net.hosts
  have hdb := Nat.div_add_mod b.value net.hosts
  rw [hna] at hda
  rw [hnb] at hdb
  rw [hosts] at hda hdb
  omega

end Net

/-! ## Steps -/

namespace Address

/-- Adding to two halves with a carry between them is adding to the whole number, and fails for a
sum of more than 128 bits. -/
theorem addHalves?_eq (value step : Nat) :
    addHalves? value step = if value + step < twoPow 128 then some (value + step) else none := by
  have hhalf : twoPow 128 = twoPow 64 * twoPow 64 := twoPow_add 64 64
  have hpos := twoPow_pos 64
  -- the two halves of the sum, put together
  have hsum : (value / twoPow 64 + (value % twoPow 64 + step) / twoPow 64) * twoPow 64 +
      (value % twoPow 64 + step) % twoPow 64 = value + step := by
    have h₁ := Nat.div_add_mod value (twoPow 64)
    have h₂ := Nat.div_add_mod (value % twoPow 64 + step) (twoPow 64)
    rw [Nat.add_mul, Nat.mul_comm (value / twoPow 64), Nat.mul_comm (_ / twoPow 64)]
    omega
  have hhigh : value / twoPow 64 + (value % twoPow 64 + step) / twoPow 64 =
      (value + step) / twoPow 64 := by
    rw [← hsum, Nat.add_comm (_ * _), Nat.add_mul_div_right _ _ hpos,
      Nat.div_eq_of_lt (Nat.mod_lt _ hpos), Nat.zero_add]
  rw [addHalves?, hsum, hhigh, Nat.div_div_eq_div_mul, ← hhalf]
  by_cases h : value + step < twoPow 128
  · rw [if_pos h, if_pos (Nat.div_eq_of_lt h)]
  · rw [if_neg h, if_neg]
    rw [Nat.div_eq_zero_iff_lt (twoPow_pos 128)]
    exact h

/-- A step adds to the number of an address, unless the sum is of more bits than the family has. -/
theorem add?_eq (a : Address) (step : UInt8) :
    a.add? step =
      if a.value + step.toNat < twoPow a.family.width then
        some (ofNat a.family (a.value + step.toNat))
      else none := by
  rw [add?]
  -- a small address is one word and a large one two halves, and either overflows at its own width
  cases hf : a.family with
  | v4 =>
    simp only [addWord?]
    by_cases h : a.value + step.toNat < twoPow 32
    · rw [if_pos (Nat.div_eq_of_lt h), if_pos (show _ < twoPow Family.v4.width from h)]
      rfl
    · rw [if_neg (show ¬_ < twoPow Family.v4.width from h), if_neg]
      · rfl
      · rw [Nat.div_eq_zero_iff_lt (twoPow_pos 32)]
        exact h
  | v6 =>
    simp only [addHalves?_eq]
    by_cases h : a.value + step.toNat < twoPow 128
    · rw [if_pos h, if_pos (show _ < twoPow Family.v6.width from h)]
      rfl
    · rw [if_neg h, if_neg (show ¬_ < twoPow Family.v6.width from h)]
      rfl

end Address

namespace Net

/-- A single host is one address. -/
theorem hosts_host (a : Address) : (host a).hosts = 1 := by
  show twoPow (a.family.width - a.family.width) = 1
  rw [Nat.sub_self, twoPow_zero]

/-- A single host contains its own address only. -/
theorem contains_host {a b : Address} : (host a).contains b = true ↔ b = a := by
  rw [contains_iff, hosts_host, Nat.div_one, Nat.div_one]
  constructor
  · rintro ⟨hfamily, hvalue⟩
    exact Address.ext_value hfamily hvalue
  · rintro rfl
    exact ⟨rfl, rfl⟩

/-- A single host is its own highest address. -/
theorem last_host (a : Address) : (host a).last = a := by
  refine Address.ext_value rfl ?_
  rw [value_last, hosts_host, Nat.div_one, Nat.mul_one]
  rfl

/-- A net is decided by its address and its prefix length. -/
theorem ext_parts {m n : Net} (haddress : m.address = n.address)
    (hlength : m.prefixLength = n.prefixLength) : m = n := by
  cases m
  cases n
  cases haddress
  cases hlength
  rfl

/-- The single host with another number is the single host of the address with that number. -/
theorem withValue_host {a b : Address} (h : b.family = a.family) :
    (host a).withValue b.value = host b := by
  refine ext_parts ?_ (congrArg Family.width h.symm)
  show Address.ofNat a.family b.value = b
  rw [← h, Address.ofNat_value]

/-- After a single host comes the next address of its family, as a single host again, unless it was
the highest. -/
theorem next_host (a : Address) :
    (host a).next =
      if a.value + 1 < twoPow a.family.width then .ok (host (.ofNat a.family (a.value + 1)))
      else .error .overflow := by
  have hhost : (host a).isHost = true := beq_iff_eq.2 rfl
  rw [next, last_host, hhost, if_pos rfl, Address.add, Address.add?_eq,
    show (1 : UInt8).toNat = 1 from rfl]
  by_cases h : a.value + 1 < twoPow a.family.width
  · rw [if_pos h, if_pos h]
    exact congrArg Except.ok (withValue_host rfl)
  · rw [if_neg h, if_neg h]

end Net

end WireKeeper
