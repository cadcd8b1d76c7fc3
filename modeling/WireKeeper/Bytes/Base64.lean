import WireKeeper.Bytes.Hex

/-! # Base64

The standard alphabet with required padding; the bits that a final group leaves unused are zero, so
every string of bytes has one text.

* `encode` writes groups of three bytes as **quads** of four symbols;
* `decode` reads the ASCII codes of such a text and names the first fault: quads but the last are
  read from the left, then the last one, where padding may stand. -/

namespace WireKeeper.Base64

/-- The padding symbol, an equals sign. It is not in the alphabet: `value? pad = none`. -/
def pad : UInt8 := 61

/-- The symbol of a six-bit value: capital letters, small letters, digits, `+` and `/`, in this
order. -/
def symbol (n : Nat) : UInt8 :=
  if n < 26 then UInt8.ofNat (65 + n)
  else if n < 52 then UInt8.ofNat (71 + n)
  else if n < 62 then UInt8.ofNat (n - 4)
  else if n = 62 then 43
  else 47

/-- The six-bit value of a symbol, as `value?_symbol` says; `none` for a byte that is not in the
alphabet, which the padding symbol is not either. -/
def value? (b : UInt8) : Option Nat :=
  let n := b.toNat
  if 65 ≤ n ∧ n ≤ 90 then some (n - 65)
  else if 97 ≤ n ∧ n ≤ 122 then some (n - 71)
  else if 48 ≤ n ∧ n ≤ 57 then some (n + 4)
  else if n = 43 then some 62
  else if n = 47 then some 63
  else none

/-- The ASCII codes of the padded text of some bytes. Three bytes fill a quad of symbols; one or two
that are left over are followed by zero bits, and padding fills their quad. -/
def encodeBytes : Bytes → Bytes
  | [] => []
  | [a] => [symbol (a.toNat / 4), symbol (a.toNat % 4 * 16), pad, pad]
  | [a, b] =>
    [symbol (a.toNat / 4), symbol (a.toNat % 4 * 16 + b.toNat / 16), symbol (b.toNat % 16 * 4), pad]
  | a :: b :: c :: rest =>
    symbol (a.toNat / 4) :: symbol (a.toNat % 4 * 16 + b.toNat / 16) ::
      symbol (b.toNat % 16 * 4 + c.toNat / 64) :: symbol (c.toNat % 64) :: encodeBytes rest

/-- The padded text of some bytes, with the ASCII codes of `encodeBytes` as characters. -/
def encode (bytes : Bytes) : String :=
  String.ofList ((encodeBytes bytes).map fun b => Char.ofNat b.toNat)

/-- Why a text is no base64. Where several things are wrong with it, the error is the one that
`decode` comes to first. -/
inductive Error where
  /-- A byte outside the alphabet, or padding where none may stand. -/
  | invalidSymbol (offset : Nat) (byte : UInt8)
  /-- A last group of a single symbol; the number counts the symbols. -/
  | invalidLength (size : Nat)
  /-- A last symbol with bits beyond the last byte. -/
  | invalidLastSymbol (offset : Nat) (byte : UInt8)
  /-- Padding that does not fill the last group. -/
  | invalidPadding
  deriving Repr, DecidableEq

/-- The wording of an error, with the byte in decimal and its offset where they are known. -/
def Error.message : Error → String
  | .invalidSymbol offset byte => s!"Invalid symbol {byte}, offset {offset}."
  | .invalidLength size => s!"Invalid input length: {size}"
  | .invalidLastSymbol offset byte => s!"Invalid last symbol {byte}, offset {offset}."
  | .invalidPadding => "Invalid padding"

/-- Read one symbol, which stands at the given offset of the whole text. -/
def readSymbol (offset : Nat) (b : UInt8) : Except Error Nat :=
  match value? b with
  | some v => .ok v
  | none => .error (.invalidSymbol offset b)

/-- Read symbols from the left and stop at the first byte that is none; `offset` is where the first
one stands. -/
def readSymbols (offset : Nat) : Bytes → Except Error (List Nat)
  | [] => .ok []
  | b :: bs => do
    let v ← readSymbol offset b
    let vs ← readSymbols (offset + 1) bs
    pure (v :: vs)

/-- The whole bytes in a group of at most four six-bit values, and the bits that are left over as a
number. A single value, which has no whole byte, gives none. -/
def joinSymbols : List Nat → Bytes × Nat
  | [a, b] => ([UInt8.ofNat (a * 4 + b / 16)], b % 16)
  | [a, b, c] => ([UInt8.ofNat (a * 4 + b / 16), UInt8.ofNat (b * 16 + c / 4)], c % 4)
  | [a, b, c, d] =>
    ([UInt8.ofNat (a * 4 + b / 16), UInt8.ofNat (b * 16 + c / 4), UInt8.ofNat (c * 64 + d)], 0)
  | _ => ([], 0)

/-- Read the last group of at most four bytes: symbols, then padding. The symbols are looked at
first, then where the padding stands, then how many there are, and at last the bits that no byte
needs. -/
def decodeLast (offset : Nat) (group : Bytes) : Except Error Bytes :=
  let body := group.takeWhile (· ≠ pad)
  let padding := group.dropWhile (· ≠ pad)
  match readSymbols offset body with
  | .error e => .error e
  | .ok values =>
    -- padding that comes too early, or with something behind it, is no symbol
    if !padding.isEmpty && (body.length < 2 || padding.any (· ≠ pad)) then
      .error (.invalidSymbol (offset + body.length) pad)
    else if !group.isEmpty && body.length < 2 then .error (.invalidLength (offset + body.length))
    else if group.length % 4 ≠ 0 then .error .invalidPadding
    else
      let (bytes, rest) := joinSymbols values
      if rest ≠ 0 then
        .error (.invalidLastSymbol (offset + body.length - 1) (body.getLast?.getD 0))
      else .ok bytes

/-- Read quads from the left; the last group may be shorter or padded, which `decodeLast` looks
after. Every quad in front of it has four symbols of the alphabet. -/
def decodeFrom (offset : Nat) : Bytes → Except Error Bytes
  | a :: b :: c :: d :: e :: rest => do
    let values ← readSymbols offset [a, b, c, d]
    let more ← decodeFrom (offset + 4) (e :: rest)
    pure ((joinSymbols values).1 ++ more)
  | group => decodeLast offset group

/-- Read a text, given by its bytes. A single stray byte behind whole quads is named before anything
else, wherever there are further faults. -/
def decode (text : Bytes) : Except Error Bytes :=
  match text.getLast? with
  | none => .ok []
  | some last =>
    if text.length % 4 = 1 ∧ last ≠ pad ∧ value? last = none then
      .error (.invalidSymbol (text.length - 1) last)
    else decodeFrom 0 text

/-- No bytes have the empty text, without any padding: `encodeBytes [] = []`. -/
@[simp] theorem encodeBytes_nil : encodeBytes [] = [] := rfl

/-- `value? (symbol n) = some n` for a value of six bits: a symbol carries its value. -/
theorem value?_symbol {n : Nat} (h : n < 64) : value? (symbol n) = some n := by
  have : ∀ m : Fin 64, value? (symbol m) = some m.val := by decide
  exact this ⟨n, h⟩

end WireKeeper.Base64
