import WireKeeper.Bytes.Utf8

/-! # Writing MessagePack

One writer for each kind of item that records hold. Every item takes the shortest of its forms. -/

namespace WireKeeper.MessagePack

/-- The byte of a null, which stands for a value that is not there. -/
def writeNull : Bytes := [0xC0]

/-- A number below `2 ^ 64`, in the shortest of the unsigned encodings. -/
def writeNatural (n : Nat) : Bytes :=
  if n < 0x80 then [UInt8.ofNat n]
  else if n < 0x100 then 0xCC :: Bytes.ofNat 1 n
  else if n < 0x10000 then 0xCD :: Bytes.ofNat 2 n
  else if n < 0x100000000 then 0xCE :: Bytes.ofNat 4 n
  else 0xCF :: Bytes.ofNat 8 n

/-- A string of less than `2 ^ 32` bytes: its length, in the shortest form, and its UTF-8. -/
def writeText (s : String) : Bytes :=
  let bytes := Utf8.ofString s
  let n := bytes.length
  let head :=
    if n < 32 then [UInt8.ofNat (0xA0 + n)]
    else if n < 0x100 then 0xD9 :: Bytes.ofNat 1 n
    else if n < 0x10000 then 0xDA :: Bytes.ofNat 2 n
    else 0xDB :: Bytes.ofNat 4 n
  head ++ bytes

/-- A binary string of less than `2 ^ 32` bytes: its length, in the shortest form, and the bytes. -/
def writeBinary (bytes : Bytes) : Bytes :=
  let n := bytes.length
  let head :=
    if n < 0x100 then 0xC4 :: Bytes.ofNat 1 n
    else if n < 0x10000 then 0xC5 :: Bytes.ofNat 2 n
    else 0xC6 :: Bytes.ofNat 4 n
  head ++ bytes

/-- An array of less than `2 ^ 32` items, given in their written form: their number, in the shortest
form, and the items. -/
def writeArray (items : List Bytes) : Bytes :=
  let n := items.length
  let head :=
    if n < 16 then [UInt8.ofNat (0x90 + n)]
    else if n < 0x10000 then 0xDC :: Bytes.ofNat 2 n
    else 0xDD :: Bytes.ofNat 4 n
  head ++ items.flatten

/-- Null, or an item in its written form, which should be no null itself if it is to be
read back. -/
def writeOptional {α : Type} (item : α → Bytes) : Option α → Bytes
  | none => writeNull
  | some a => item a

end WireKeeper.MessagePack
