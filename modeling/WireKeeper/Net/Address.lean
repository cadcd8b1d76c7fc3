import WireKeeper.Bytes.Hex

/-! # Internet addresses

An `Address` is a number of 32 or 128 bits, its **family** deciding which.

* `twoPow`: the numbers of some bits, the greatest of which is a mask of ones;
* `Address.toBytes`, `Address.ofBytes?`: the big-endian bytes, four or sixteen of them;
* `Address.add?`: a small step upward, `none` when it leaves the family. The wide family adds two
  64-bit halves with a carry between them (`addHalves?`). -/

namespace WireKeeper

/-! ## Numbers of some bits -/

/-- How many numbers of so many bits there are: the power of two, kept as a function of its own so
that no proof computes it by mistake. -/
def twoPow (n : Nat) : Nat := Nat.pow 2 n

/-- There is one number without bits: `twoPow 0 = 1`. -/
@[simp] theorem twoPow_zero : twoPow 0 = 1 := rfl

/-- `twoPow (n + 1) = 2 * twoPow n`: one bit more makes twice as many numbers. -/
theorem twoPow_succ (n : Nat) : twoPow (n + 1) = 2 * twoPow n := Nat.pow_succ'

/-- `0 < twoPow n`: there is always a number of so many bits, so division by `twoPow n` means
something. -/
theorem twoPow_pos (n : Nat) : 0 < twoPow n := Nat.two_pow_pos n

/-- `a &&& (twoPow n - 1) = a % twoPow n`: a mask of ones keeps a remainder. -/
theorem and_twoPow_sub_one (a n : Nat) : a &&& (twoPow n - 1) = a % twoPow n :=
  Nat.and_two_pow_sub_one_eq_mod a n

/-! ## Addresses -/

/-- The two families of addresses, which never mix: an address of one is not equal to any of the
other. -/
inductive Family where
  | v4
  | v6
  deriving DecidableEq, Repr

/-- The number of bits of an address: 32 or 128. -/
def Family.width : Family → Nat
  | .v4 => 32
  | .v6 => 128

/-- The number of bytes of an address: 4 or 16. -/
def Family.size : Family → Nat
  | .v4 => 4
  | .v6 => 16

/-- An internet address: its family and its number, which has as many bits as the family says. -/
structure Address where
  family : Family
  value : Nat
  value_lt : value < twoPow family.width
  deriving DecidableEq

/-- Why a text or a string of bytes is no address or net, or a step is impossible. -/
inductive AddressError where
  /-- A step beyond the highest address. -/
  | overflow
  /-- A text that is no net. -/
  | invalidNet (text : String)
  /-- A text or a number of bytes that is no address. -/
  | invalidAddress (text : String)
  /-- An address and a mask of different lengths. -/
  | lengthMismatch (address mask : Nat)
  /-- A mask with a one after a zero. -/
  | gapInMask
  deriving DecidableEq, Repr

/-- The wording of an error. Where a text is to blame, it is shown without quotes. -/
def AddressError.message : AddressError → String
  | .overflow => "ip address overflow"
  | .invalidNet text => s!"invalid CIDR address: {text}"
  | .invalidAddress text => s!"invalid IP address: {text}"
  | .lengthMismatch address mask => s!"address length {address} does not match mask length {mask}"
  | .gapInMask => "non-contiguous network mask"

namespace Address

/-- The address with a number's low bits; what does not fit into the family is left out. -/
def ofNat (family : Family) (n : Nat) : Address :=
  ⟨family, n % twoPow family.width, Nat.mod_lt _ (twoPow_pos _)⟩

/-- The big-endian bytes of an address, four or sixteen of them. -/
def toBytes (a : Address) : Bytes := Bytes.ofNat a.family.size a.value

/-- Read an address from its four or sixteen bytes, whose number decides the family. -/
def ofBytes? (bytes : Bytes) : Option Address :=
  if bytes.length = 4 then some (ofNat .v4 bytes.toNat)
  else if bytes.length = 16 then some (ofNat .v6 bytes.toNat)
  else none

/-- Read an address from its bytes, or say how many there are if they are none. -/
def ofBytes (bytes : Bytes) : Except AddressError Address :=
  match ofBytes? bytes with
  | some a => .ok a
  | none => .error (.invalidAddress s!"{bytes.length}-byte address")

/-- Add a step to a number of two 64-bit halves: the low halves first, then the carry to the high
half. `none` if there is a carry out of the high half. -/
def addHalves? (value step : Nat) : Option Nat :=
  let half := twoPow 64
  let low := value % half + step
  let high := value / half + low / half
  if high / half = 0 then some (high * half + low % half) else none

/-- Add a step to a 32-bit number; `none` if the sum does not fit. -/
def addWord? (value step : Nat) : Option Nat :=
  if (value + step) / twoPow 32 = 0 then some (value + step) else none

/-- The address a step above, unless it leaves the family: no address is reached by going around. -/
def add? (a : Address) (step : UInt8) : Option Address :=
  let sum := match a.family with
    | .v4 => addWord? a.value step.toNat
    | .v6 => addHalves? a.value step.toNat
  sum.map (ofNat a.family)

/-- The address a step above, or the error that it would leave the family. -/
def add (a : Address) (step : UInt8) : Except AddressError Address :=
  match a.add? step with
  | some b => .ok b
  | none => .error .overflow

/-- `(ofNat family n).family = family`: the address of a number has the family that was
asked for. -/
@[simp] theorem family_ofNat (family : Family) (n : Nat) : (ofNat family n).family = family := rfl

/-- `(ofNat family n).value = n % twoPow family.width`: of a number, an address has the low bits. -/
@[simp] theorem value_ofNat (family : Family) (n : Nat) :
    (ofNat family n).value = n % twoPow family.width := rfl

/-- `a.family = b.family → a.value = b.value → a = b`: an address is decided by its family and its
number. -/
theorem ext_value {a b : Address} (family : a.family = b.family) (value : a.value = b.value) :
    a = b := by
  cases a; cases b; simp_all

/-- `a.toBytes.length = a.family.size`: an address has as many bytes as its family says. -/
@[simp] theorem length_toBytes (a : Address) : a.toBytes.length = a.family.size := by
  simp [toBytes]

end Address

end WireKeeper
