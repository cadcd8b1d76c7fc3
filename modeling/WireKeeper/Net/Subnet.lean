import WireKeeper.Net.AddressText

/-! # Nets

A `Net` is an address with a **prefix length**: how many of its leading bits name the network. The
address keeps its host bits, so `10.9.8.5/24` is the host `.5` inside `10.9.8.0/24`.

* `network`, `last`, `toHost`: the net with host bits cleared, its highest address, the single-host
  net around the address;
* `next`: the address after the network, one above the highest for a single host and two above
  otherwise;
* `hostBits`, `contains`, `overlaps`: another address seen through the mask;
* `toRaw`, `ofRaw`: address and mask as bytes, where mixed lengths are narrowed to 32 bits. -/

namespace WireKeeper

/-- An address with a prefix length. The address may have host bits; `network` is the net without
them. -/
structure Net where
  address : Address
  prefixLength : Nat
  prefixLength_le : prefixLength ≤ address.family.width
  deriving DecidableEq

namespace Net

/-- The number of host bits: those of the address behind its prefix. -/
def hostLength (net : Net) : Nat := net.address.family.width - net.prefixLength

/-- The mask of the host bits, as a number: ones at the end, `hostLength` of them. -/
def hostMask (net : Net) : Nat := twoPow net.hostLength - 1

/-- The mask of the network bits, as a number: ones in front, `prefixLength` of them, and then
zeros. -/
def netMask (net : Net) : Nat := (twoPow net.prefixLength - 1) <<< net.hostLength

/-- The highest address of the network: all host bits are set. -/
def last (net : Net) : Address :=
  Address.ofNat net.address.family (net.address.value ||| net.hostMask)

/-- Whether the prefix covers the whole address, so that there are no host bits. -/
def isHost (net : Net) : Bool := net.prefixLength == net.address.family.width

/-- The net of a single address, whose prefix is as long as the address. -/
def host (a : Address) : Net := ⟨a, a.family.width, Nat.le_refl _⟩

/-- The single-host net around the address of a net, host bits included. -/
def toHost (net : Net) : Net := host net.address

/-- A net of an address with a prefix length, unless it is longer than the address. -/
def make? (a : Address) (prefixLength : Nat) : Option Net :=
  if h : prefixLength ≤ a.family.width then some ⟨a, prefixLength, h⟩ else none

/-- The same prefix length around another address of the family, given by its number. -/
def withValue (net : Net) (n : Nat) : Net :=
  ⟨Address.ofNat net.address.family n, net.prefixLength, net.prefixLength_le⟩

/-- The network: host bits cleared, and the same prefix length. -/
def network (net : Net) : Net := net.withValue (net.address.value &&& net.netMask)

/-- The net after this one, with the same prefix length: the highest address is stepped by one for a
single host and by two otherwise, which skips the base address of the following network. Where the
step leaves the family, there is none. -/
def next (net : Net) : Except AddressError Net :=
  match net.last.add (if net.isHost then 1 else 2) with
  | .ok a => .ok (net.withValue a.value)
  | .error e => .error e

/-- The host part of an address under the mask of a net; zero for the other family. -/
def hostBits (net : Net) (a : Address) : Nat :=
  if a.family = net.address.family then a.value &&& net.hostMask else 0

/-- Whether the network of a net contains an address: one of the same family with the same network
bits. -/
def contains (net : Net) (a : Address) : Bool :=
  a.family = net.address.family &&
    (a.value &&& net.netMask) == (net.address.value &&& net.netMask)

/-- Whether the own network of a net contains an address; as only network bits count, it is the same
as `contains`. -/
def overlaps (net : Net) (a : Address) : Bool := net.network.contains a

/-! ## Text -/

/-- Read a net that takes the whole text: an address, a slash and the prefix length, of at most two
or three digits. The address is read in the lenient way. -/
def read? (s : List Char) : Option Net :=
  let narrow := do
    let (n, s) ← Dialect.lenient.readOctets s
    let (p, s) ← Dialect.readNumber 10 2 33 (← Dialect.expect '/' s)
    some (Address.ofNat .v4 n, p, s)
  let wide := do
    let (n, s) ← Dialect.lenient.readWide s
    let (p, s) ← Dialect.readNumber 10 3 129 (← Dialect.expect '/' s)
    some (Address.ofNat .v6 n, p, s)
  -- the longest prefix of the narrow family has two digits, that of the wide one three
  match narrow <|> wide with
  | some (a, p, []) => make? a p
  | _ => none

/-- Read a net, with blanks around it; the error shows the text as it was given. -/
def parse (s : String) : Except AddressError Net :=
  match read? (Text.trim s.toList) with
  | some net => .ok net
  | none => .error (.invalidNet s)

/-- Read a list of nets; the first fault counts, and then nothing is read. -/
def parseAll (items : List String) : Except AddressError (List Net) := items.mapM parse

/-- A net as text, `address/length`, from which `parse` reads the same net. -/
def write (net : Net) : List Char := net.address.write ++ '/' :: Text.decimal net.prefixLength

/-- The text of a net is the one that is written for it. -/
instance : ToString Net := ⟨fun net => String.ofList net.write⟩

/-- Nets as text, with a separator between them; none of them is the empty text. -/
def formatAll (items : List Net) (sep : String) : String :=
  String.ofList (Text.joinWith sep.toList (items.map write))

/-! ## Raw bytes -/

/-- The bits of a byte, the most significant first: eight of them. -/
def byteBits (b : UInt8) : List Bool := (List.range 8).map fun i => b.toNat.testBit (7 - i)

/-- The bits of a mask, in order, eight for each byte. -/
def maskBits (mask : Bytes) : List Bool := mask.flatMap byteBits

/-- Why raw bytes are not read as a net. -/
inductive RawFault where
  /-- They are no net. -/
  | refused (reason : AddressError)
  /-- The mask has more ones than a byte can count. Counting breaks off there: nothing is answered,
  not even an error. -/
  | overflow
  deriving DecidableEq, Repr

/-- Where a scan of a mask stands: how many ones it has counted, in a byte, and whether it has met a
zero. -/
structure MaskScan where
  ones : UInt8
  metZero : Bool
  deriving DecidableEq, Repr

namespace MaskScan

/-- Nothing is scanned yet: no one is counted, and no zero is met. -/
def start : MaskScan := ⟨0, false⟩

/-- Scan one more bit. A one behind a zero is refused. Any other one is counted, and the addition is
checked: a counter that stands at `255` has no next value. -/
def step (scan : MaskScan) : Bool → Except RawFault MaskScan
  | true =>
    if scan.metZero then .error (.refused .gapInMask)
    else if scan.ones = 255 then .error .overflow
    else .ok { scan with ones := scan.ones + 1 }
  | false => .ok { scan with metZero := true }

end MaskScan

/-- The prefix length a mask stands for: its bits are ones, which are counted, and then zeros. Any
other mask is refused, and one of more than 255 ones is not counted to its end. -/
def lengthOfMask (mask : Bytes) : Except RawFault Nat := do
  let scan ← (maskBits mask).foldlM MaskScan.step .start
  pure scan.ones.toNat

/-- The twelve bytes in front of a 32-bit address inside a 128-bit one: ten zeros and two bytes of
ones. -/
def mappedStart : Bytes := List.replicate 10 0 ++ [0xFF, 0xFF]

/-- Narrow a pair of mixed lengths to 32 bits: a 16-byte mask that starts with twelve bytes of ones
beside a 4-byte address, and a 4-byte mask beside a mapped 16-byte address. Any other pair stays as
it is. -/
def narrowRaw (address mask : Bytes) : Bytes × Bytes :=
  let mask :=
    if mask.length = 16 ∧ address.length = 4 ∧ (mask.take 12).all (· == 0xFF) then mask.drop 12
    else mask
  let address :=
    if mask.length = 4 ∧ address.length = 16 ∧ address.take 12 = mappedStart then address.drop 12
    else address
  (address, mask)

/-- Read a net from the bytes of an address and of a mask. The mask is counted before anyone asks
whether an address has so many bytes. -/
def ofRaw (address mask : Bytes) : Except RawFault Net := do
  let (address, mask) := narrowRaw address mask
  if address.length ≠ mask.length then
    throw (.refused (.lengthMismatch address.length mask.length))
  -- this comes before the length of the address is looked at
  let prefixLength ← lengthOfMask mask
  let a ← (Address.ofBytes address).mapError .refused
  match make? a prefixLength with
  | some net => pure net
  | none => throw (.refused (.invalidNet "invalid IP prefix length"))

/-- The bytes of the address and of the mask, of the same number, from which `ofRaw` reads the same
net. -/
def toRaw (net : Net) : Bytes × Bytes :=
  (net.address.toBytes, Bytes.ofNat net.address.family.size net.netMask)

/-- `(host a).address = a`: the net of a single address keeps the address. -/
@[simp] theorem address_host (a : Address) : (host a).address = a := rfl

/-- `(net.withValue n).address.family = net.address.family`: another number does not change the
family. -/
@[simp] theorem family_withValue (net : Net) (n : Nat) :
    (net.withValue n).address.family = net.address.family := rfl

/-- `(net.withValue n).prefixLength = net.prefixLength`: another number does not change the prefix
length. -/
@[simp] theorem prefixLength_withValue (net : Net) (n : Nat) :
    (net.withValue n).prefixLength = net.prefixLength := rfl

/-- `net.hostBits a = a.value % twoPow net.hostLength` for an address of the same family: the host
part under a mask is a remainder. -/
theorem hostBits_eq_mod (net : Net) (a : Address) (h : a.family = net.address.family) :
    net.hostBits a = a.value % twoPow net.hostLength := by
  simp [hostBits, h, hostMask, and_twoPow_sub_one]

end Net

end WireKeeper
