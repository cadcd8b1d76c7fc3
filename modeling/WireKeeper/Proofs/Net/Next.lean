import WireKeeper.Proofs.Net.Subnet

/-! # The net after another one

A step upward from an address is addition, whichever way the family adds. The networks of one prefix
length lie end to end, and the next one begins where a network ends: so a step of two beyond the
highest address stays inside the next network, unless the network is the last one of its family.

* `Address.add_eq_ok`, `Address.add_eq_error`: a step, and a step too far;
* `Net.value_last_add_one`, `Net.last_add_hosts_le`: networks end to end;
* `Net.Follows`: a net and the one after it;
* `Net.next_exact`: what the next net is, and when there is none. -/

namespace WireKeeper

/-! ## Steps -/

namespace Address

variable {a b : Address} {step : UInt8}

/-- A step that succeeds adds to the number and stays in the family: `a.add step` is `b` exactly for
`b.value = a.value + step` in the family of `a`. -/
theorem add_eq_ok :
    a.add step = .ok b ↔ b.family = a.family ∧ b.value = a.value + step.toNat := by
  rw [add, add?_eq]
  by_cases hfits : a.value + step.toNat < twoPow a.family.width
  · rw [if_pos hfits]
    constructor
    · intro h
      cases h
      exact ⟨rfl, Nat.mod_eq_of_lt hfits⟩
    · rintro ⟨hfamily, hvalue⟩
      refine congrArg Except.ok (ext_value hfamily.symm ?_)
      rw [value_ofNat, Nat.mod_eq_of_lt hfits, hvalue]
  · rw [if_neg hfits]
    constructor
    · intro h
      cases h
    · -- no address of the family has such a number
      rintro ⟨hfamily, hvalue⟩
      have hlt := b.value_lt
      rw [hfamily, hvalue] at hlt
      exact absurd hlt hfits

/-- A step fails only because the sum is of more bits than the family has, and then it does: `2 ^
width ≤ a.value + step`. -/
theorem add_eq_error {e : AddressError} :
    a.add step = .error e ↔ e = .overflow ∧ twoPow a.family.width ≤ a.value + step.toNat := by
  rw [add, add?_eq]
  -- the sum fits and there is no error, or it does not and there is this one
  by_cases hfits : a.value + step.toNat < twoPow a.family.width
  · rw [if_pos hfits]
    constructor
    · intro h
      cases h
    · exact fun h => absurd hfits (Nat.not_lt.2 h.2)
  · rw [if_neg hfits]
    constructor
    · intro h
      cases h
      exact ⟨rfl, Nat.le_of_not_lt hfits⟩
    · rintro ⟨rfl, -⟩
      rfl

end Address

namespace Net

variable {net m : Net}

/-! ## Networks end to end -/

/-- The next network begins behind the highest address: `last + 1` is a multiple of `hosts`, one
more than the multiple that the address is above. -/
theorem value_last_add_one (net : Net) :
    net.last.value + 1 = (net.address.value / net.hosts + 1) * net.hosts := by
  have hpos := net.hosts_pos
  rw [value_last, Nat.succ_mul]
  omega

/-- Behind a network that is not the last one of its family there is room for another, of as many
addresses. -/
theorem last_add_hosts_le (h : net.last.value + 1 < twoPow net.address.family.width) :
    net.last.value + 1 + net.hosts ≤ twoPow net.address.family.width := by
  -- a family is made up of networks: `2 ^ width` addresses are `2 ^ prefixLength` networks of
  -- `hosts` addresses
  have hwidth : twoPow net.address.family.width = twoPow net.prefixLength * net.hosts := by
    rw [← net.prefixLength_add_hostLength, twoPow_add]
    rfl
  rw [value_last_add_one, hwidth] at h ⊢
  -- counted in networks, the next one is not yet the number of all of them
  have hnext := Nat.lt_of_mul_lt_mul_right h
  rw [← Nat.succ_mul]
  exact Nat.mul_le_mul_right net.hosts hnext

/-- A net of more than one address has at least two: `2 ≤ net.hosts`, as the number of its addresses
is a power of two and not the lowest. -/
theorem two_le_hosts (h : net.isHost = false) : 2 ≤ net.hosts := by
  have hne : net.prefixLength ≠ net.address.family.width := beq_eq_false_iff_ne.1 h
  -- the host part has a bit, since the prefix is shorter than the address
  have hpos : 0 < net.hostLength :=
    Nat.sub_pos_of_lt (Nat.lt_of_le_of_ne net.prefixLength_le hne)
  -- that bit alone doubles the number of addresses
  rw [hosts, ← Nat.sub_add_cancel hpos, twoPow_succ]
  exact Nat.mul_le_mul_left 2 (twoPow_pos _)

/-- The prefix length decides how many addresses there are, not the address: `(net.withValue
n).hosts = net.hosts`. -/
@[simp] theorem hosts_withValue (net : Net) (n : Nat) : (net.withValue n).hosts = net.hosts := rfl

/-! ## The next net -/

/-- How far above the highest address the next net is: one for a single host, two for all others. -/
def stride (net : Net) : Nat := if net.isHost then 1 else 2

/-- The stride leads to the first or the second address of the next network: `1 ≤ net.stride ∧
net.stride ≤ net.hosts`. -/
theorem stride_bounds (net : Net) : 1 ≤ net.stride ∧ net.stride ≤ net.hosts := by
  have hpos := net.hosts_pos
  rw [stride]
  split
  · exact ⟨Nat.le_refl 1, hpos⟩
  · next h => exact ⟨by decide, two_le_hosts (Bool.not_eq_true _ ▸ h)⟩

/-- The next net is of the same family and prefix length, its address is one above the highest of a
single host and two above the highest of any other net, its network begins right behind, and in that
network the address is the one behind the base address. -/
structure Follows (net m : Net) : Prop where
  family : m.address.family = net.address.family
  prefixLength : m.prefixLength = net.prefixLength
  value : m.address.value = net.last.value + if net.isHost then 1 else 2
  network : m.network.address.value = net.last.value + 1
  hostBits : net.isHost = false → m.hostBits m.address = 1

/-- The next net is a stride above the highest address, with the same prefix length, or the step
overflows. -/
theorem next_eq (net : Net) :
    net.next =
      if net.last.value + net.stride < twoPow net.address.family.width then
        .ok (net.withValue (net.last.value + net.stride))
      else .error .overflow := by
  have hstride : (if net.isHost then 1 else 2 : UInt8).toNat = net.stride := by
    rw [stride]
    split <;> rfl
  have hfamily : net.last.family = net.address.family := rfl
  rw [next, Address.add, Address.add?_eq, hstride, hfamily]
  by_cases hfits : net.last.value + net.stride < twoPow net.address.family.width
  · rw [if_pos hfits, if_pos hfits]
    refine congrArg Except.ok (ext_parts (Address.ext_value rfl ?_) rfl)
    exact Nat.mod_mod _ _
  · rw [if_neg hfits, if_neg hfits]

/-- A stride leaves the family if and only if the highest address is the highest of all. Below it
there is a whole network, and a stride stays inside. -/
theorem stride_fits_iff (net : Net) :
    net.last.value + net.stride < twoPow net.address.family.width ↔
      net.last.value ≠ twoPow net.address.family.width - 1 := by
  obtain ⟨hone, hhosts⟩ := net.stride_bounds
  have hlast : net.last.value < twoPow net.address.family.width := net.last.value_lt
  constructor
  · intro hfits
    omega
  · intro hne
    have hbelow : net.last.value + 1 < twoPow net.address.family.width := by omega
    have hroom := last_add_hosts_le hbelow
    omega

/-- The net a stride above the highest address follows, if there is one. -/
theorem follows_withValue
    (hfits : net.last.value + net.stride < twoPow net.address.family.width) :
    net.Follows (net.withValue (net.last.value + net.stride)) := by
  have hvalue : (net.withValue (net.last.value + net.stride)).address.value =
      net.last.value + net.stride := Nat.mod_eq_of_lt hfits
  obtain ⟨hone, hhosts⟩ := net.stride_bounds
  -- the address is that of the next network, and at most one more
  have hsplit : net.last.value + net.stride =
      (net.address.value / net.hosts + 1) * net.hosts + (net.stride - 1) := by
    rw [← value_last_add_one]
    omega
  have hlt : net.stride - 1 < net.hosts := by omega
  refine ⟨rfl, rfl, hvalue, ?_, fun hhost => ?_⟩
  -- what is added to the base address is less than a network, so it changes the host part alone
  · have hblock :
        (net.last.value + net.stride) / net.hosts = net.address.value / net.hosts + 1 := by
      rw [hsplit, Nat.mul_comm, Nat.mul_add_div net.hosts_pos, Nat.div_eq_of_lt hlt, Nat.add_zero]
    rw [value_network, hvalue, hosts_withValue, hblock, value_last_add_one]
  · rw [hostBits_eq_mod _ _ rfl, hvalue, hsplit, ← hosts, hosts_withValue, Nat.mul_comm,
      Nat.mul_add_mod, Nat.mod_eq_of_lt hlt, stride, hhost]
    rfl

/-- **Next-address arithmetic is exact.** A step from an address is addition, and fails only if the
sum is of more bits than the family has, though the wide family adds two halves. There is no net
after another one if and only if the highest address of that one is the highest of the family, and
then the step overflows; otherwise there is one, and it follows. -/
theorem next_exact :
    (∀ (a : Address) (step : UInt8),
      (∀ b, a.add step = .ok b ↔ b.family = a.family ∧ b.value = a.value + step.toNat) ∧
      ∀ e, a.add step = .error e ↔
        e = .overflow ∧ twoPow a.family.width ≤ a.value + step.toNat) ∧
    ∀ net : Net,
      if net.last.value = twoPow net.address.family.width - 1 then net.next = .error .overflow
      else ∃ m, net.next = .ok m ∧ net.Follows m := by
  refine ⟨fun a step => ⟨fun b => Address.add_eq_ok, fun e => Address.add_eq_error⟩, fun net => ?_⟩
  split
  · next htop =>
    rw [next_eq, if_neg fun hfits => net.stride_fits_iff.1 hfits htop]
  · next hbelow =>
    have hfits := net.stride_fits_iff.2 hbelow
    exact ⟨_, by rw [next_eq, if_pos hfits], follows_withValue hfits⟩

/-- The carry goes from the low half to the high half. -/
example : (Net.host (.ofNat .v6 (twoPow 64 - 1))).next =
    .ok (Net.host (.ofNat .v6 (twoPow 64))) := by rfl

end Net

end WireKeeper
