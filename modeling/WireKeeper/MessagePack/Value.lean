import WireKeeper.Bytes.Utf8

/-! # Reading MessagePack

A `Value` is what one encoded item means. `Value.read` takes the item at the start of some bytes and
gives the bytes after it; containers may nest up to a depth that the caller sets.

The readers at the end turn values into what a record wants: bytes may stand as a binary string or
as an array of small numbers, text as a string or as a binary string of UTF-8. -/

namespace WireKeeper.MessagePack

/-- What one encoded item means. Which of several encodings of it stood there is not kept, but for
the sign of a number's encoding. -/
inductive Value where
  | null
  | boolean (b : Bool)
  /-- A number in one of the unsigned encodings. -/
  | natural (n : Nat)
  /-- A number in one of the signed encodings. -/
  | integer (i : Int)
  /-- The bytes of a floating-point number. -/
  | float (bits : Bytes)
  /-- The bytes of a string, which need not be UTF-8. -/
  | text (bytes : Bytes)
  | binary (bytes : Bytes)
  | array (items : List Value)
  | map (entries : List (Value × Value))
  /-- An application's own kind of item. -/
  | extension (bytes : Bytes)

/-- Take some bytes from the front, and give them with the rest; `none` if there are too few. -/
def takeBytes : Nat → Bytes → Option (Bytes × Bytes)
  | 0, bs => some ([], bs)
  | _ + 1, [] => none
  | n + 1, b :: bs =>
    match takeBytes n bs with
    | some (taken, rest) => some (b :: taken, rest)
    | none => none

/-- Take a big-endian number of some bytes from the front, and give it with the rest. -/
def takeNat (size : Nat) (bs : Bytes) : Option (Nat × Bytes) :=
  (takeBytes size bs).map fun p => (Bytes.toNat p.1, p.2)

/-- A number of some bytes as a signed one: `Int.bmod`, which is two's complement. -/
def signed (size n : Nat) : Int := Int.bmod n (Nat.pow 256 size)

/-- Read a number of things one after the other. It fails as soon as one of them cannot be read, so
a large count does not matter where the bytes end early. -/
def readMany {α : Type} (one : Bytes → Option (α × Bytes)) : Nat → Bytes → Option (List α × Bytes)
  | 0, bs => some ([], bs)
  | n + 1, bs =>
    match one bs with
    | none => none
    | some (a, bs) =>
      match readMany one n bs with
      | none => none
      | some (as, bs) => some (a :: as, bs)

/-- Read two things one after the other, such as a key and its value. -/
def readPair {α : Type} (one : Bytes → Option (α × Bytes)) (bs : Bytes) :
    Option ((α × α) × Bytes) :=
  match one bs with
  | none => none
  | some (a, bs) =>
    match one bs with
    | none => none
    | some (b, bs) => some ((a, b), bs)

namespace Value

/-- What the first byte of an item announces: all of the item, or how the rest of it is to
be read. -/
inductive Lead where
  /-- The item is complete. -/
  | done (value : Value)
  /-- So many bytes follow and make up the item. -/
  | bytes (size : Nat) (make : Bytes → Value)
  /-- A length of so many bytes follows, then the bytes of the item; `extra` bytes come on top. -/
  | sized (lengthSize extra : Nat) (make : Bytes → Value)
  /-- So many items follow. -/
  | items (count : Nat)
  /-- So many pairs follow. -/
  | pairs (count : Nat)
  /-- A count of so many bytes follows, then the items. -/
  | countedItems (countSize : Nat)
  /-- A count of so many bytes follows, then the pairs. -/
  | countedPairs (countSize : Nat)
  /-- No item begins so. -/
  | reserved

/-- The meaning of the first byte, given as a number. Only `0xC1` is reserved. -/
def lead (n : Nat) : Lead :=
  let number := fun bs => natural (Bytes.toNat bs)
  let whole := fun bs => integer (signed bs.length (Bytes.toNat bs))
  if n < 0x80 then .done (natural n)
  else if n < 0x90 then .pairs (n - 0x80)
  else if n < 0xA0 then .items (n - 0x90)
  else if n < 0xC0 then .bytes (n - 0xA0) text
  else if 0xE0 ≤ n then .done (integer ((n : Int) - 0x100))
  else
    match n with
    | 0xC0 => .done null
    | 0xC2 => .done (boolean false)
    | 0xC3 => .done (boolean true)
    | 0xC4 => .sized 1 0 binary
    | 0xC5 => .sized 2 0 binary
    | 0xC6 => .sized 4 0 binary
    -- an extension has one byte more, which says what kind it is
    | 0xC7 => .sized 1 1 extension
    | 0xC8 => .sized 2 1 extension
    | 0xC9 => .sized 4 1 extension
    | 0xCA => .bytes 4 float
    | 0xCB => .bytes 8 float
    | 0xCC => .bytes 1 number
    | 0xCD => .bytes 2 number
    | 0xCE => .bytes 4 number
    | 0xCF => .bytes 8 number
    | 0xD0 => .bytes 1 whole
    | 0xD1 => .bytes 2 whole
    | 0xD2 => .bytes 4 whole
    | 0xD3 => .bytes 8 whole
    | 0xD4 => .bytes 2 extension
    | 0xD5 => .bytes 3 extension
    | 0xD6 => .bytes 5 extension
    | 0xD7 => .bytes 9 extension
    | 0xD8 => .bytes 17 extension
    | 0xD9 => .sized 1 0 text
    | 0xDA => .sized 2 0 text
    | 0xDB => .sized 4 0 text
    | 0xDC => .countedItems 2
    | 0xDD => .countedItems 4
    | 0xDE => .countedPairs 2
    | 0xDF => .countedPairs 4
    | _ => .reserved

/-- Whether an item nests one level deeper; the last level of the allowed depth holds none that
does. An extension counts as nested too. -/
def isNested : Value → Bool
  | array _ => true
  | map _ => true
  | extension _ => true
  | _ => false

/-- Read an item by its first byte, given the reader of the items inside. All of its bytes and items
have to be there. -/
def readLead (inner : Bytes → Option (Value × Bytes)) (bs : Bytes) : Lead → Option (Value × Bytes)
  | .done v => some (v, bs)
  | .bytes size make => (takeBytes size bs).map fun p => (make p.1, p.2)
  | .sized lengthSize extra make => do
    let (size, bs) ← takeNat lengthSize bs
    let (taken, bs) ← takeBytes (size + extra) bs
    some (make taken, bs)
  | .items count => (readMany inner count bs).map fun p => (array p.1, p.2)
  | .pairs count => (readMany (readPair inner) count bs).map fun p => (map p.1, p.2)
  | .countedItems countSize => do
    let (count, bs) ← takeNat countSize bs
    let (items, bs) ← readMany inner count bs
    some (array items, bs)
  | .countedPairs countSize => do
    let (count, bs) ← takeNat countSize bs
    let (entries, bs) ← readMany (readPair inner) count bs
    some (map entries, bs)
  | .reserved => none

/-- Read the item at the front; containers nest less than `depth` levels deep. The bytes behind it
are left. -/
def read : (depth : Nat) → Bytes → Option (Value × Bytes)
  | 0, _ => none
  | _ + 1, [] => none
  | depth + 1, b :: bs =>
    -- at depth one nothing may be nested, not even an empty array
    (readLead (read depth) bs (lead b.toNat)).filter fun p => 0 < depth || !p.1.isNested

/-! ## What a record wants -/

/-- A number below 256 as a byte, in whichever encoding it stood. -/
def asByte? : Value → Option UInt8
  | natural n => if n < 256 then some (UInt8.ofNat n) else none
  | integer i => if 0 ≤ i ∧ i < 256 then some (UInt8.ofNat i.toNat) else none
  | _ => none

/-- Bytes: a binary string, an array of small numbers, or a string that is no UTF-8. One that is
UTF-8 is text and refused. -/
def asBytes? : Value → Option Bytes
  | binary bytes => some bytes
  | text bytes => if (Utf8.toString? bytes).isNone then some bytes else none
  | array items => items.mapM asByte?
  | _ => none

/-- Text: a string or a binary string, of UTF-8 in either case. -/
def asString? : Value → Option String
  | text bytes => Utf8.toString? bytes
  | binary bytes => Utf8.toString? bytes
  | _ => none

/-- A number of 64 bits with a sign, in whichever encoding it stood. -/
def asInt? : Value → Option Int
  | natural n => if n < 0x8000000000000000 then some n else none
  | integer i => some i
  | _ => none

/-- A list: an array, each of whose items is what is wanted. -/
def asList? {α : Type} (item : Value → Option α) : Value → Option (List α)
  | array items => items.mapM item
  | _ => none

/-- Null, which is `some none`, or something else that is what is wanted. -/
def asOptional? {α : Type} (item : Value → Option α) : Value → Option (Option α)
  | null => some none
  | v => (item v).map some

/-- The position of the field that a key of a map means: its name, as text or as bytes, or its
position. `none` if this is no key, and the number of fields for a field that is not known. -/
def fieldOf? (names : List String) : Value → Option Nat
  | text bytes => some (names.findIdx fun n => Utf8.ofString n == bytes)
  | binary bytes => some (names.findIdx fun n => Utf8.ofString n == bytes)
  | natural n => some (min n names.length)
  | _ => none

/-- The values of the known fields of a map: each at most once, unknown ones left out. A field that
is there twice makes the whole map unreadable. -/
def mapFields? (names : List String) : List (Value × Value) → Option (List (Nat × Value))
  | [] => some []
  | (key, value) :: rest => do
    let i ← fieldOf? names key
    let fields ← mapFields? names rest
    if i < names.length then
      if fields.any fun f => f.1 == i then none else some ((i, value) :: fields)
    else some fields

/-- The values of the named fields of a record: an array of all of them in order, or a map by name,
where fields may be missing and stand in any order. -/
def asFields? (names : List String) : Value → Option (List (Option Value))
  | array items => if items.length = names.length then some (items.map some) else none
  | map entries => do
    let fields ← mapFields? names entries
    some ((List.range names.length).map fun i => fields.lookup i)
  | _ => none

end Value

end WireKeeper.MessagePack
