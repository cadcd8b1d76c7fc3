/-! # Hexadecimal text

Bytes as pairs of lower-case hexadecimal digits. `ofHex?` also reads upper-case digits. -/

namespace WireKeeper

/-- A string of bytes, the first one in front. Numbers in it are big-endian throughout. -/
abbrev Bytes := List UInt8

namespace Bytes

/-- The lower-case hexadecimal digit of a value below sixteen: `0` to `9`, then `a` to `f`. -/
def hexDigit (n : Nat) : Char :=
  if n < 10 then Char.ofNat (48 + n) else Char.ofNat (87 + n)

/-- The value of a hexadecimal digit, a letter being of either case; `none` for any other
character. -/
def hexValue? (c : Char) : Option Nat :=
  let n := c.toNat
  if 48 ≤ n ∧ n ≤ 57 then some (n - 48)
  else if 97 ≤ n ∧ n ≤ 102 then some (n - 87)
  else if 65 ≤ n ∧ n ≤ 70 then some (n - 55)
  else none

/-- The text of some bytes: two lower-case digits for each byte, the high half first. -/
def toHex (bytes : Bytes) : String :=
  String.ofList (bytes.flatMap fun b => [hexDigit (b.toNat / 16), hexDigit (b.toNat % 16)])

/-- Read pairs of digits as bytes; `none` for an odd number of characters and for one that is no
digit. -/
def ofHexChars? : List Char → Option Bytes
  | [] => some []
  | [_] => none
  | a :: b :: rest => do
    let hi ← hexValue? a
    let lo ← hexValue? b
    let bytes ← ofHexChars? rest
    pure (UInt8.ofNat (hi * 16 + lo) :: bytes)

/-- Read a text of paired hexadecimal digits, as `toHex` writes it or with capital letters. -/
def ofHex? (s : String) : Option Bytes := ofHexChars? s.toList

/-- The value of bytes read as one big-endian number: `v * 256 + b` for each byte `b` from
the left. -/
def toNat (bytes : Bytes) : Nat := bytes.foldl (fun v b => v * 256 + b.toNat) 0

/-- The last `size` bytes of a number, most significant first. What does not fit into them is left
out, as `toNat_ofNat` says. -/
def ofNat : Nat → Nat → Bytes
  | 0, _ => []
  | size + 1, n => ofNat size (n / 256) ++ [UInt8.ofNat n]

/-- `(ofNat size n).length = size`: the number of bytes is the one that is asked for, whether or not
the number fits into them. -/
@[simp] theorem length_ofNat (size n : Nat) : (ofNat size n).length = size := by
  induction size generalizing n with
  | zero => rfl
  | succ size ih => simp [ofNat, ih]

end Bytes

end WireKeeper
